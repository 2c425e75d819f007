import PageSweep.Proofs.Lists
import PageSweep.Proofs.Page.Reachable

/-!
# Pages that differ in numbers only

Two pages are alike if they have the same host, cookies, stylesheets and elements, in the same places; how
the elements are numbered, what lies loose, how often they were reloaded and whether they are marked may be
different. A page made anew from its own snapshot is like the page, and whatever is done to an element of one
of two like pages can be done to the element at its place in the other.

* `Storable.alike_reopen`: a page made anew from its snapshot.
* `Alike.renumbers`: between like pages there is a renumbering.
* `Renumbers.query`, `Renumbers.remove`, `Renumbers.update`: what it carries over.
-/

namespace PageSweep.Page

/-- The page made anew from its snapshot. -/
def reopen (p : Page) : Page := (ofSnapshot p.snapshot).1

/-- **Pages that differ in numbers only.** -/
structure Alike (p q : Page) : Prop where
  hostname : q.hostname = p.hostname
  jar : q.jar = p.jar
  headAttached : q.headAttached = p.headAttached
  sheets : q.sheets = p.sheets
  body : q.body.map Node.element = p.body.map Node.element

theorem Alike.refl (p : Page) : p.Alike p := ⟨rfl, rfl, rfl, rfl, rfl⟩

variable {p q r : Page}

theorem Alike.symm (h : p.Alike q) : q.Alike p :=
  ⟨h.hostname.symm, h.jar.symm, h.headAttached.symm, h.sheets.symm, h.body.symm⟩

theorem Alike.trans (h : p.Alike q) (h' : q.Alike r) : p.Alike r :=
  ⟨h'.hostname.trans h.hostname, h'.jar.trans h.jar, h'.headAttached.trans h.headAttached,
    h'.sheets.trans h.sheets, h'.body.trans h.body⟩

/-- Like pages have one snapshot. -/
theorem Alike.snapshot (h : p.Alike q) : q.snapshot = p.snapshot := by
  have hbody : ∀ r : Page, r.body.map (fun n => ElementSpec.ofElement n.element) =
      (r.body.map Node.element).map ElementSpec.ofElement := fun r => by
    rw [Forest.map_map]
    rfl
  simp only [Page.snapshot, h.hostname, h.jar, h.headAttached, h.sheets, hbody, h.body]

/-! ### A page made anew -/

/-- The id and the class of an element go back among its attributes. -/
theorem attrs_toElement_ofElement (e : Element) : (ElementSpec.ofElement e).toElement.attrs = e.attrs := by
  apply Table.ext_get?
  intro k
  simp only [ElementSpec.toElement, ElementSpec.ofElement]
  cases hid : e.attrs.get? "id" <;> cases hclass : e.attrs.get? "class" <;>
    grind [Table.get?_insert, Table.get?_erase]

theorem toElement_ofElement {e : Element} (h : Text.lower e.tag = e.tag) :
    (ElementSpec.ofElement e).toElement = e := by
  have htag : (ElementSpec.ofElement e).toElement.tag = e.tag := h
  calc (ElementSpec.ofElement e).toElement
      = ⟨(ElementSpec.ofElement e).toElement.tag, (ElementSpec.ofElement e).toElement.attrs,
          e.style, e.clicks⟩ := rfl
    _ = e := by rw [htag, attrs_toElement_ofElement]

/-- **A page made anew from its snapshot is like the page.** -/
theorem Storable.alike_reopen (h : p.Storable) : p.Alike p.reopen := by
  refine ⟨rfl, ?_, rfl, ?_, ?_⟩
  · -- The empty jar that the cookies are put into is the jar of the page without its cookies.
    have hjar : ((Page.new p.hostname).withPath p.jar.pagePath).jar = { p.jar with cookies := [] } := by
      simp only [withPath, CookieJar.withPagePath, Page.new]
      rw [if_pos h.jar.path, CookieJar.new, ← h.host]
    show p.jar.cookies.foldl CookieJar.insert ((Page.new p.hostname).withPath p.jar.pagePath).jar = p.jar
    rw [hjar]
    exact h.jar.foldl_insert
  · apply Table.ext_entries
    simp only [reopen, Page.ofSnapshot, Page.snapshot, Table.map, List.map_map]
    refine (List.map_congr_left fun e he => ?_).trans (List.map_id _)
    exact Prod.ext rfl (h.sheets e he).sheetOf_cssText
  · simp only [reopen, Page.ofSnapshot, Page.snapshot, Forest.map_map]
    have hnumber := Forest.map_snd_numberFrom 1 (p.body.map fun n => ElementSpec.ofElement n.element)
    have hmap := congrArg (Forest.map ElementSpec.toElement) hnumber
    rw [Forest.map_map, Forest.map_map] at hmap
    refine hmap.trans (Forest.map_congr fun n hn => ?_)
    exact toElement_ofElement (h.tags n (List.mem_append_left _ hn))

theorem numbered_reopen (p : Page) : p.reopen.Numbered := numbered_ofSnapshot _

/-! ### Renumbering -/

/-- The node of another number. -/
def renumber (f : Nat → Nat) (n : Node) : Node := ⟨f n.ref, n.element⟩

/-- **A page whose body is that of another one numbered anew**, where different numbers of a list stay
different. -/
structure Renumbers (f : Nat → Nat) (refs : List Nat) (p q : Page) : Prop where
  hostname : q.hostname = p.hostname
  jar : q.jar = p.jar
  headAttached : q.headAttached = p.headAttached
  sheets : q.sheets = p.sheets
  body : q.body = p.body.map (renumber f)
  mem : ∀ n ∈ p.body.preorder, n.ref ∈ refs
  inj : ∀ a ∈ refs, ∀ b ∈ refs, f a = f b → a = b

variable {f : Nat → Nat} {refs : List Nat}

theorem Renumbers.alike (h : Renumbers f refs p q) : p.Alike q := by
  refine ⟨h.hostname, h.jar, h.headAttached, h.sheets, ?_⟩
  rw [h.body, Forest.map_map]
  rfl

/-- **Between like pages there is a renumbering.** -/
theorem Alike.renumbers (h : p.Alike q) (hp : p.Numbered) (hq : q.Numbered) :
    ∃ f refs, Renumbers f refs p q := by
  have hpn := hp.sides.1
  have hqn := hq.sides.1
  have hlen : (p.body.preorder.map Node.ref).length = (q.body.preorder.map Node.ref).length := by
    have := congrArg (fun f => f.preorder.length) h.body
    simpa using this.symm
  obtain ⟨f, hf⟩ := exists_map_eq hpn hlen
  refine ⟨f, p.body.preorder.map Node.ref, h.hostname, h.jar, h.headAttached, h.sheets, ?_, ?_, ?_⟩
  · -- The bodies have the same elements in the same places, and the same numbers in document order.
    refine Forest.eq_of_map_eq (h := Node.element) (g := Node.ref) ?_ ?_ ?_
    · intro a b he hr
      cases a; cases b; cases he; cases hr
      rfl
    · rw [Forest.map_map, h.body]
      rfl
    · rw [Forest.preorder_map, List.map_map, hf, List.map_map]
      rfl
  · exact fun n hn => List.mem_map_of_mem hn
  · intro a ha b hb hab
    rw [hf] at hqn
    exact List.inj_on_of_nodup_map hqn ha hb hab

namespace Renumbers

/-- The node of a number and the node of its new number are the same node. -/
theorem beq (h : Renumbers f refs p q) {ref : Nat} (href : ref ∈ refs) {n : Node}
    (hn : n ∈ p.body.preorder) : ((renumber f n).ref == f ref) = (n.ref == ref) := by
  rw [Bool.eq_iff_iff, beq_iff_eq, beq_iff_eq]
  exact ⟨h.inj _ (h.mem n hn) _ href, fun he => congrArg f he⟩

/-- **A selector finds the same elements.** -/
theorem query (h : Renumbers f refs p q) (selector : String) :
    q.query selector = (p.query selector).map (List.map f) := by
  unfold Page.query
  cases Selector.read selector with
  | error e => rfl
  | ok s =>
    have hwalk : q.body.withAncestors [] = (p.body.withAncestors []).map fun n =>
        (renumber f n.1, n.2.map (renumber f)) := by
      rw [h.body]
      exact Forest.map_withAncestors (renumber f) [] p.body
    simp only [Except.map, hwalk, List.filter_map, List.map_map, Except.ok.injEq]
    have hfit : ((fun n : Node × List Node => s.isMatch n.1.element (n.2.map (·.element))) ∘
        fun n : Node × List Node => (renumber f n.1, n.2.map (renumber f))) =
        fun n => s.isMatch n.1.element (n.2.map (·.element)) := by
      funext n
      simp only [Function.comp_apply, List.map_map]
      rfl
    rw [hfit]
    rfl

theorem isConnected (h : Renumbers f refs p q) {ref : Nat} (href : ref ∈ refs) :
    q.isConnected (f ref) = p.isConnected ref := by
  unfold Page.isConnected Page.connected
  rw [h.body, Forest.preorder_map, List.any_map, Bool.eq_iff_iff, List.any_eq_true, List.any_eq_true]
  constructor
  · rintro ⟨n, hn, hb⟩
    exact ⟨n, hn, (h.beq href hn).symm.trans hb⟩
  · rintro ⟨n, hn, hb⟩
    exact ⟨n, hn, (h.beq href hn).trans hb⟩

/-- **Changing an element at both of its numbers.** -/
theorem update (h : Renumbers f refs p q) {ref : Nat} (href : ref ∈ refs) (g : Element → Element) :
    Renumbers f refs (p.update ref g) (q.update (f ref) g) := by
  refine ⟨h.hostname, h.jar, h.headAttached, h.sheets, ?_, ?_, h.inj⟩
  · rw [body_update, body_update, h.body, Forest.map_map, Forest.map_map]
    refine Forest.map_congr fun n hn => ?_
    have hb := h.beq href hn
    rw [Bool.eq_iff_iff, beq_iff_eq, beq_iff_eq] at hb
    simp only [Function.comp_apply, updated]
    by_cases hn : n.ref = ref
    · rw [if_pos hn, if_pos (hb.2 hn)]
      rfl
    · rw [if_neg hn, if_neg fun h => hn (hb.1 h)]
  · intro n hn
    rw [body_update, Forest.preorder_map] at hn
    obtain ⟨m, hm, rfl⟩ := List.mem_map.1 hn
    rw [updated_ref]
    exact h.mem m hm

theorem clicked (h : Renumbers f refs p q) {ref : Nat} (href : ref ∈ refs) :
    Renumbers f refs (p.clicked ref) (q.clicked (f ref)) := by
  have hupdate := h.update href Element.click
  exact ⟨hupdate.hostname, hupdate.jar, hupdate.headAttached, hupdate.sheets, hupdate.body, hupdate.mem, hupdate.inj⟩

/-- **Taking an element away at both of its numbers.** -/
theorem remove (h : Renumbers f refs p q) {ref : Nat} (href : ref ∈ refs) :
    Renumbers f refs (p.remove ref) (q.remove (f ref)) := by
  refine ⟨h.hostname, h.jar, h.headAttached, h.sheets, ?_, ?_, h.inj⟩
  · show (q.body.cut _).1 = ((p.body.cut _).1).map _
    have hcut : p.body.cut ((fun n : Node => n.ref == f ref) ∘ renumber f) =
        p.body.cut (fun n : Node => n.ref == ref) := Forest.cut_congr fun n hn => h.beq href hn
    rw [h.body, Forest.map_cut, hcut]
  · exact fun n hn => h.mem n ((Forest.preorder_cut_sublist _ _).subset hn)

/-- One thing after the other, done to both pages. -/
theorem foldl (h : Renumbers f refs p q) {step : Page → Nat → Page}
    (hstep : ∀ p q : Page, Renumbers f refs p q → ∀ ref ∈ refs,
      Renumbers f refs (step p ref) (step q (f ref)))
    {found : List Nat} (hfound : ∀ ref ∈ found, ref ∈ refs) :
    Renumbers f refs (found.foldl step p) ((found.map f).foldl step q) := by
  induction found generalizing p q with
  | nil => exact h
  | cons ref found ih =>
    exact ih (hstep p q h ref (hfound ref List.mem_cons_self)) fun r hr => hfound r (List.mem_cons_of_mem _ hr)

end Renumbers

/-- What a selector finds is in the body. -/
theorem mem_of_query {selector : String} {found : List Nat} (h : p.query selector = .ok found) :
    ∀ ref ∈ found, ∃ n ∈ p.body.preorder, n.ref = ref := by
  unfold query at h
  split at h
  · cases h
  · cases h
    intro ref href
    obtain ⟨n, hn, rfl⟩ := List.mem_map.1 href
    refine ⟨n.1, ?_, rfl⟩
    rw [← Forest.preorder_withAncestors [] p.body]
    exact List.mem_map_of_mem (List.mem_filter.1 hn).1

end PageSweep.Page
