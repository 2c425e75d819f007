import Mathlib.Data.List.Nodup
import PageSweep.Proofs.Page.Forest

/-!
# The numbers of a page

The elements of a page are told apart by their numbers, also those that lie loose, and the next number is
beyond all of them. Changing an element or taking it from its place numbers nothing anew.

* `Numbered.element?_eq_some_iff`: the element of a number.
* `foldl_update`: one change made to different elements.
* `Numbered.append`: a new element is a new number.
* `nodes_remove`: no element is lost.
* `numbered_ofSnapshot`: a page that is made from a snapshot.
-/

namespace PageSweep.Page

/-- The elements with their numbers, wherever they are. -/
def nodes (p : Page) : List Node := p.body.preorder ++ p.loose.preorder

def refs (p : Page) : List Nat := p.nodes.map Node.ref

/-- **The elements are told apart by their numbers.** -/
structure Numbered (p : Page) : Prop where
  nodup : p.refs.Nodup
  lt : ∀ r ∈ p.refs, r < p.next

theorem Numbered.of_perm {p q : Page} (h : p.Numbered) (hr : q.refs.Perm p.refs) (hn : q.next = p.next) :
    q.Numbered :=
  ⟨hr.nodup_iff.2 h.nodup, fun r hr' => hn ▸ h.lt r (hr.mem_iff.1 hr')⟩

/-- The elements of the body are told apart, those that lie loose are, and none is on both sides. -/
theorem Numbered.sides {p : Page} (h : p.Numbered) : (p.body.preorder.map Node.ref).Nodup ∧
    (p.loose.preorder.map Node.ref).Nodup ∧
      ∀ a ∈ p.body.preorder.map Node.ref, ∀ b ∈ p.loose.preorder.map Node.ref, a ≠ b := by
  have hnodup := h.nodup
  rw [refs, nodes, List.map_append] at hnodup
  exact List.nodup_append.1 hnodup

/-- There is at most one element of a number. -/
theorem Numbered.countP_le {p : Page} (h : p.Numbered) (ref : Nat) :
    p.nodes.countP (·.ref == ref) ≤ 1 := by
  have hcount := List.nodup_iff_count.1 h.nodup ref
  rw [refs, List.count, List.countP_map] at hcount
  exact hcount

/-- **The element of a number** is the one in the node of the number. -/
theorem Numbered.element?_eq_some_iff {p : Page} (h : p.Numbered) {ref : Nat} {e : Element} :
    p.element? ref = some e ↔ ⟨ref, e⟩ ∈ p.nodes := by
  rw [element?, Option.map_eq_some_iff]
  constructor
  · rintro ⟨n, hn, rfl⟩
    have hmem := List.mem_of_find?_eq_some hn
    have href := List.find?_some hn
    rw [beq_iff_eq] at href
    rw [← href]
    exact hmem
  · intro hmem
    obtain ⟨n, hn⟩ : ∃ n, (p.body.preorder ++ p.loose.preorder).find? (·.ref == ref) = some n := by
      rw [← Option.isSome_iff_exists, List.find?_isSome]
      exact ⟨_, hmem, beq_iff_eq.2 rfl⟩
    have href := List.find?_some hn
    rw [beq_iff_eq] at href
    -- Two nodes of one number are one node.
    have heq : n = ⟨ref, e⟩ :=
      List.inj_on_of_nodup_map h.nodup (List.mem_of_find?_eq_some hn) hmem href
    exact ⟨n, hn, by rw [heq]⟩

theorem numbered_new (hostname : String) : (new hostname).Numbered :=
  ⟨.nil, fun r hr => by simp [refs, nodes, new] at hr⟩

/-! ### Changing elements -/

/-- What changing the element of a number does to a node. -/
def updated (ref : Nat) (f : Element → Element) (n : Node) : Node :=
  if n.ref = ref then { n with element := f n.element } else n

@[simp] theorem updated_ref (ref : Nat) (f : Element → Element) (n : Node) :
    (updated ref f n).ref = n.ref := by
  unfold updated
  split <;> rfl

theorem body_update (p : Page) (ref : Nat) (f : Element → Element) :
    (p.update ref f).body = p.body.map (updated ref f) := rfl

theorem loose_update (p : Page) (ref : Nat) (f : Element → Element) :
    (p.update ref f).loose = p.loose.map (updated ref f) := rfl

theorem nodes_update (p : Page) (ref : Nat) (f : Element → Element) :
    (p.update ref f).nodes = p.nodes.map (updated ref f) := by
  rw [nodes, nodes, body_update, loose_update, Forest.preorder_map, Forest.preorder_map, List.map_append]

theorem refs_update (p : Page) (ref : Nat) (f : Element → Element) : (p.update ref f).refs = p.refs := by
  rw [refs, nodes_update, List.map_map, refs]
  exact List.map_congr_left fun n _ => updated_ref ref f n

theorem element?_update (p : Page) (ref r : Nat) (f : Element → Element) :
    (p.update ref f).element? r = if r = ref then (p.element? r).map f else p.element? r := by
  have hnodes : ∀ q : Page, q.element? r = (q.nodes.find? (·.ref == r)).map (·.element) := fun _ => rfl
  have hsame : ((fun n : Node => n.ref == r) ∘ updated ref f) = fun n => n.ref == r := by
    funext n
    rw [Function.comp_apply, updated_ref]
  rw [hnodes, hnodes, nodes_update, List.find?_map, hsame, Option.map_map]
  cases hn : p.nodes.find? (·.ref == r) with
  | none => simp
  | some n =>
    have href := List.find?_some hn
    rw [beq_iff_eq] at href
    simp only [Option.map_some, Function.comp_apply, updated, href]
    split <;> rfl

theorem Numbered.update {p : Page} (h : p.Numbered) (ref : Nat) (f : Element → Element) :
    (p.update ref f).Numbered := h.of_perm (.of_eq (refs_update p ref f)) rfl

/-- Two changes of one element are one. -/
theorem update_update (p : Page) (ref : Nat) (f g : Element → Element) :
    (p.update ref f).update ref g = p.update ref fun e => g (f e) := by
  have hnode : updated ref g ∘ updated ref f = updated ref fun e => g (f e) := by
    funext n
    by_cases hn : n.ref = ref <;> simp [updated, hn]
  show { p with
    body := (p.body.map (updated ref f)).map (updated ref g)
    loose := (p.loose.map (updated ref f)).map (updated ref g) } = _
  rw [Forest.map_map, Forest.map_map, hnode]
  rfl

/-- A node with a change made to its element, if it has one of some numbers. -/
def changed (refs : List Nat) (f : Element → Element) (n : Node) : Node :=
  if n.ref ∈ refs then { n with element := f n.element } else n

/-- **One change made to different elements**, to each of them once. -/
theorem foldl_update {refs : List Nat} (h : refs.Nodup) (f : Element → Element) (p : Page) :
    refs.foldl (fun p ref => p.update ref f) p =
      { p with body := p.body.map (changed refs f), loose := p.loose.map (changed refs f) } := by
  induction refs generalizing p with
  | nil =>
    have hnone (g : Forest Node) : g.map (changed [] f) = g := Forest.map_eq_self fun n _ => if_neg List.not_mem_nil
    rw [hnone, hnone]
    rfl
  | cons ref refs ih =>
    obtain ⟨hnew, hrest⟩ := List.nodup_cons.1 h
    have hnode : changed refs f ∘ updated ref f = changed (ref :: refs) f := by
      funext n
      simp only [Function.comp_apply, changed, updated, List.mem_cons]
      by_cases hn : n.ref = ref
      · simp [hn, hnew]
      · simp [hn]
    rw [List.foldl_cons, ih hrest, body_update, loose_update, Forest.map_map, Forest.map_map, hnode]
    rfl

theorem Numbered.clicked {p : Page} (h : p.Numbered) (ref : Nat) : (p.clicked ref).Numbered :=
  ⟨(h.update ref Element.click).nodup, (h.update ref Element.click).lt⟩

theorem click_eq_ok {p q : Page} {ref : Nat} (h : p.click ref = .ok q) :
    p.isConnected ref = true ∧ q = p.clicked ref := by
  unfold click at h
  split at h
  · rename_i hc; cases h; exact ⟨hc, rfl⟩
  · cases h

/-! ### Taking elements from their place -/

/-- **No element is lost.** -/
theorem nodes_remove (p : Page) (ref : Nat) : (p.remove ref).nodes.Perm p.nodes := by
  have hbody := Forest.preorder_cut_perm (fun n : Node => n.ref == ref) p.body
  have hloose := Forest.preorder_cutBelow_perm (fun n : Node => n.ref == ref) p.loose
  simp only [nodes, remove, Forest.preorder_append]
  -- What is cut off the body comes last among what lies loose.
  refine List.Perm.trans ?_ (hbody.append hloose)
  rw [List.append_assoc _ _ (Forest.preorder (Forest.cutBelow _ _).1 ++ _)]
  exact .append_left _ List.perm_append_comm

theorem refs_remove (p : Page) (ref : Nat) : (p.remove ref).refs.Perm p.refs := (nodes_remove p ref).map _

theorem Numbered.remove {p : Page} (h : p.Numbered) (ref : Nat) : (p.remove ref).Numbered :=
  h.of_perm (refs_remove p ref) rfl

theorem Numbered.element?_remove {p : Page} (h : p.Numbered) (ref r : Nat) :
    (p.remove ref).element? r = p.element? r := by
  apply Option.ext
  intro e
  rw [(h.remove ref).element?_eq_some_iff, h.element?_eq_some_iff]
  exact (nodes_remove p ref).mem_iff

theorem Numbered.element?_removeAll {p : Page} (h : p.Numbered) (refs : List Nat) (r : Nat) :
    (refs.foldl Page.remove p).element? r = p.element? r := by
  induction refs generalizing p with
  | nil => rfl
  | cons ref refs ih => exact (ih (h.remove ref)).trans (h.element?_remove ref r)

/-! ### New elements -/

/-- **A new element is a new number**, once or not at all. -/
theorem Numbered.append {p : Page} (h : p.Numbered) (parent : Option Nat) (e : Element) :
    (p.append parent e).1.Numbered := by
  have hrefs : ∃ k ≤ 1, (p.append parent e).1.refs.Perm (p.refs ++ List.replicate k p.next) := by
    cases parent with
    | none =>
      refine ⟨1, Nat.le_refl _, ?_⟩
      simp only [refs, nodes, Page.append, Forest.preorder_append, Forest.tree, Forest.preorder_cons,
        Forest.preorder_nil, List.append_nil, List.map_append, List.map_cons, List.map_nil,
        List.replicate_one, List.append_assoc]
      exact .append_left _ List.perm_append_comm
    | some ref =>
      refine ⟨p.nodes.countP (·.ref == ref), h.countP_le ref, ?_⟩
      have hbody := (Forest.preorder_addBelow_perm (fun n : Node => n.ref == ref) ⟨p.next, e⟩ p.body).map
        Node.ref
      have hloose := (Forest.preorder_addBelow_perm (fun n : Node => n.ref == ref) ⟨p.next, e⟩ p.loose).map
        Node.ref
      rw [List.map_append, List.map_replicate] at hbody hloose
      simp only [refs, nodes, Page.append, List.map_append, List.countP_append, ← List.replicate_append_replicate]
      refine (hbody.append hloose).trans ?_
      simp only [List.append_assoc]
      refine .append_left _ ?_
      rw [← List.append_assoc, ← List.append_assoc]
      exact List.perm_append_comm.append_right _
  obtain ⟨k, hk, hperm⟩ := hrefs
  have hnext : (p.append parent e).1.next = p.next + 1 := by cases parent <;> rfl
  refine ⟨hperm.nodup_iff.2 (List.nodup_append.2 ⟨h.nodup, ?_, ?_⟩), fun r hr => ?_⟩
  · exact List.nodup_replicate.2 hk
  · intro a ha b hb hab
    have hlt := h.lt a ha
    rw [List.eq_of_mem_replicate hb] at hab
    omega
  · rw [hnext]
    rcases List.mem_append.1 (hperm.mem_iff.1 hr) with hr | hr
    · have := h.lt r hr
      omega
    · rw [List.eq_of_mem_replicate hr]
      omega

/-! ### Pages of snapshots -/

theorem refs_ofSnapshot (s : Snapshot) :
    (ofSnapshot s).1.refs = List.range' 1 s.body.preorder.length := by
  obtain ⟨-, -, hrefs⟩ := Forest.preorder_numberFrom 1 s.body
  simp only [refs, nodes, ofSnapshot, new, withPath, Forest.preorder_map, Forest.preorder_nil,
    List.append_nil, List.map_map]
  exact hrefs

theorem numbered_ofSnapshot (s : Snapshot) : (ofSnapshot s).1.Numbered := by
  obtain ⟨-, hnext, -⟩ := Forest.preorder_numberFrom 1 s.body
  have hn : (ofSnapshot s).1.next = 1 + s.body.preorder.length := hnext
  refine ⟨refs_ofSnapshot s ▸ List.nodup_range', fun r hr => ?_⟩
  rw [refs_ofSnapshot, List.mem_range'_1] at hr
  omega

end PageSweep.Page
