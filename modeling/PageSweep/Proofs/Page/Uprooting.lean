import Mathlib.Data.List.Perm.Subperm
import PageSweep.Proofs.Page.Numbered

/-!
# Elements that were taken from their places

What was taken from its place lies loose as the root of a tree of its own, and stays there: nothing puts it
back, and no selector finds it again. So the roots of what lies loose are a record of all that was taken, each
element standing in it once.

* `uprooted_remove`: one element more is taken from its place.
* `Uproots.trans`: changes one after the other.
* `uproots_removeAll`: taking away all that a selector found.
* `Uproots.length_le`: no more can be taken than there was.
-/

namespace PageSweep.Page

/-- The numbers of the elements that were taken from their places, as they lie loose. -/
def uprooted (p : Page) : List Nat := p.loose.tops.map Node.ref

/-- The numbers of the elements in the body, in document order. -/
def rooted (p : Page) : List Nat := p.body.preorder.map Node.ref

variable {p q r : Page} {ns ms : List Nat}

theorem length_rooted (p : Page) : p.rooted.length = p.elementCount := List.length_map ..

theorem mem_refs_of_rooted {ref : Nat} (h : ref ∈ p.rooted) : ref ∈ p.refs := by
  rw [refs, nodes, List.map_append]
  exact List.mem_append_left _ h

/-- What was taken from its place is not in the body. -/
theorem Numbered.not_uprooted (h : p.Numbered) {ref : Nat} (hr : ref ∈ p.rooted) : ref ∉ p.uprooted := by
  intro hu
  have hloose : ref ∈ p.loose.preorder.map Node.ref := ((Forest.tops_sublist _).map _).subset hu
  exact h.sides.2.2 ref hr ref hloose rfl

theorem rooted_remove_sublist (p : Page) (ref : Nat) : (p.remove ref).rooted.Sublist p.rooted :=
  (Forest.preorder_cut_sublist _ p.body).map _

theorem not_mem_rooted_remove (p : Page) (ref : Nat) : ref ∉ (p.remove ref).rooted := by
  intro hr
  obtain ⟨n, hn, rfl⟩ := List.mem_map.1 hr
  simpa using Forest.not_of_mem_cut (fun m : Node => m.ref == n.ref) p.body n hn

/-- **One element more is taken from its place**, wherever it is, unless it was taken before. -/
theorem uprooted_remove (h : p.Numbered) {ref : Nat} (hr : ref ∈ p.refs) (hu : ref ∉ p.uprooted) :
    (p.remove ref).uprooted = p.uprooted ++ [ref] := by
  have hcount := h.countP_le ref
  rw [nodes, List.countP_append] at hcount
  have htop : ∀ n ∈ p.loose.tops, (n.ref == ref) = false := by
    intro n hn
    rw [beq_eq_false_iff_ne]
    rintro rfl
    exact hu (List.mem_map_of_mem hn)
  -- What is cut off is the one node of the number, be it in the body or below what lies loose.
  have hoff : ((p.loose.cutBelow (·.ref == ref)).2.tops ++ (p.body.cut (·.ref == ref)).2.tops).map Node.ref =
      [ref] := by
    rw [Forest.tops_cut_off _ p.body (by omega), Forest.tops_cutBelow_off _ p.loose (by omega) htop,
      ← List.filter_append]
    have hperm : (p.loose.preorder ++ p.body.preorder).Perm p.nodes := List.perm_append_comm
    have hone : (p.nodes.map Node.ref).count ref = 1 := List.count_eq_one_of_mem h.nodup hr
    have hfilter : ((p.loose.preorder ++ p.body.preorder).filter (·.ref == ref)).map Node.ref =
        ((p.loose.preorder ++ p.body.preorder).map Node.ref).filter (· == ref) := by
      rw [List.filter_map]
      rfl
    rw [hfilter, List.filter_beq, (hperm.map Node.ref).count_eq, hone, List.replicate_one]
  rw [uprooted, uprooted, remove]
  simp only [Forest.tops_append, Forest.tops_cutBelow, List.append_assoc]
  rw [List.map_append, hoff]

/-! ### Changes -/

/-- **A page after elements were taken from their places**, just these and each once: they were in the body
and are no longer there, and the body holds nothing new. -/
structure Uproots (ns : List Nat) (p q : Page) : Prop where
  uprooted : q.uprooted = p.uprooted ++ ns
  rooted : q.rooted.Sublist p.rooted
  found : ∀ ref ∈ ns, ref ∈ p.rooted
  gone : ∀ ref ∈ ns, ref ∉ q.rooted
  nodup : ns.Nodup

/-- A change that leaves all elements in their places. -/
theorem Uproots.of_eq (hbody : q.rooted = p.rooted) (hloose : q.uprooted = p.uprooted) : p.Uproots [] q :=
  ⟨by rw [hloose, List.append_nil], hbody ▸ .refl _, fun _ h => absurd h List.not_mem_nil,
    fun _ h => absurd h List.not_mem_nil, .nil⟩

theorem Uproots.refl (p : Page) : p.Uproots [] p := .of_eq rfl rfl

theorem Uproots.trans (h : p.Uproots ns q) (h' : q.Uproots ms r) : p.Uproots (ns ++ ms) r := by
  refine ⟨?_, h'.rooted.trans h.rooted, fun ref href => ?_, fun ref href => ?_, ?_⟩
  · rw [h'.uprooted, h.uprooted, List.append_assoc]
  · rcases List.mem_append.1 href with href | href
    · exact h.found ref href
    · exact h.rooted.subset (h'.found ref href)
  · rcases List.mem_append.1 href with href | href
    · exact fun hr => h.gone ref href (h'.rooted.subset hr)
    · exact h'.gone ref href
  · refine List.nodup_append.2 ⟨h.nodup, h'.nodup, ?_⟩
    rintro a ha b hb rfl
    exact h.gone a ha (h'.found a hb)

/-- **No more can be taken from its place than there was.** -/
theorem Uproots.length_le (h : p.Uproots ns q) : ns.length ≤ p.elementCount := by
  rw [← length_rooted]
  exact (List.subperm_of_subset h.nodup h.found).length_le

theorem uproots_update (p : Page) (ref : Nat) (f : Element → Element) : p.Uproots [] (p.update ref f) := by
  have hsame : ∀ ns : List Node, (ns.map (updated ref f)).map Node.ref = ns.map Node.ref := by
    intro ns
    rw [List.map_map]
    exact List.map_congr_left fun n _ => updated_ref ref f n
  refine .of_eq ?_ ?_
  · rw [rooted, rooted, body_update, Forest.preorder_map, hsame]
  · rw [uprooted, uprooted, loose_update, Forest.tops_map, hsame]

theorem uproots_clicked (p : Page) (ref : Nat) : p.Uproots [] (p.clicked ref) :=
  (p.uproots_update ref Element.click).trans (.of_eq rfl rfl)

/-- One change after the other that leave all elements in their places. -/
theorem uproots_foldl {α : Type} {step : Page → α → Page} (h : ∀ (p : Page) (a : α), p.Uproots [] (step p a))
    (as : List α) (p : Page) : p.Uproots [] (as.foldl step p) := by
  induction as generalizing p with
  | nil => exact .refl p
  | cons a as ih => exact (h p a).trans (ih (step p a))

/-- **Taking away different elements, each of which was there at first**: an element stays one to take when it
comes to lie loose below another one that was taken. -/
theorem uprooted_removeAll (h : p.Numbered) {refs : List Nat} (hnodup : refs.Nodup)
    (hrefs : ∀ ref ∈ refs, ref ∈ p.refs ∧ ref ∉ p.uprooted) :
    (refs.foldl Page.remove p).uprooted = p.uprooted ++ refs := by
  induction refs generalizing p with
  | nil => rw [List.append_nil]; rfl
  | cons ref refs ih =>
    obtain ⟨hnew, hnodup'⟩ := List.nodup_cons.1 hnodup
    obtain ⟨hr, hu⟩ := hrefs ref List.mem_cons_self
    have hone := uprooted_remove h hr hu
    have hrest : ∀ ref' ∈ refs, ref' ∈ (p.remove ref).refs ∧ ref' ∉ (p.remove ref).uprooted := by
      intro ref' href'
      obtain ⟨hr', hu'⟩ := hrefs ref' (List.mem_cons_of_mem _ href')
      refine ⟨(refs_remove p ref).mem_iff.2 hr', fun hm => ?_⟩
      rw [hone] at hm
      rcases List.mem_append.1 hm with hm | hm
      · exact hu' hm
      · exact hnew (List.mem_singleton.1 hm ▸ href')
    rw [List.foldl_cons, ih (h.remove ref) hnodup' hrest, hone, List.append_assoc, List.singleton_append]

theorem rooted_removeAll (p : Page) (refs : List Nat) :
    (refs.foldl Page.remove p).rooted.Sublist p.rooted ∧
      ∀ ref ∈ refs, ref ∉ (refs.foldl Page.remove p).rooted := by
  induction refs generalizing p with
  | nil => exact ⟨.refl _, fun _ h => absurd h List.not_mem_nil⟩
  | cons ref refs ih =>
    obtain ⟨hsub, hgone⟩ := ih (p.remove ref)
    refine ⟨hsub.trans (rooted_remove_sublist p ref), fun ref' href' => ?_⟩
    rcases List.mem_cons.1 href' with rfl | href'
    · exact fun hm => not_mem_rooted_remove p ref' (hsub.subset hm)
    · exact hgone ref' href'

/-- **Taking away different elements of the body**, nested ones among them. -/
theorem uproots_removeAll (h : p.Numbered) {refs : List Nat} (hrefs : refs.Sublist p.rooted) :
    p.Uproots refs (refs.foldl Page.remove p) := by
  have hnodup : p.rooted.Nodup := h.sides.1
  obtain ⟨hsub, hgone⟩ := rooted_removeAll p refs
  refine ⟨uprooted_removeAll h (hnodup.sublist hrefs) fun ref href => ?_, hsub,
    fun ref href => hrefs.subset href, hgone, hnodup.sublist hrefs⟩
  exact ⟨mem_refs_of_rooted (hrefs.subset href), h.not_uprooted (hrefs.subset href)⟩

/-- What a selector finds are elements of the body, in document order. -/
theorem query_sublist {selector : String} {found : List Nat} (h : p.query selector = .ok found) :
    found.Sublist p.rooted := by
  unfold query at h
  split at h
  · cases h
  · cases h
    rw [rooted, ← Forest.preorder_withAncestors [] p.body, List.map_map]
    exact List.filter_sublist.map _

end PageSweep.Page
