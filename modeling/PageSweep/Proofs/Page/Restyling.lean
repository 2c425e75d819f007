import Mathlib.Data.List.Induction
import PageSweep.Proofs.Page.Dressing
import PageSweep.Proofs.Text.Pieces

/-!
# What styling changes

Declarations that are written to a style leave the entries that it has in their places. The first entry of a property
gets the value that is declared last, and what was not there comes behind in the order in which it was declared first.
Taking a word out of the class attribute leaves the other words.

* `Element.continues_declareAll`: a style after declarations.
* `Element.restyles_dress`, `Element.declasses_removeClass`: an element after either change.
* `Page.Numbered.foldl_update_eq`: one change made to different elements of the body.
-/

namespace PageSweep

open Text

namespace Element

variable {property value : String} {style old kept added ds : List Declaration}

/-! ### Declarations -/

theorem map_fst_declare (property value : String) (style : List Declaration) :
    (declare property value style).map Prod.fst =
      if property ∈ style.map Prod.fst then style.map Prod.fst else style.map Prod.fst ++ [property] := by
  induction style with
  | nil => rfl
  | cons d ds ih =>
    rw [declare]
    by_cases hd : d.1 = property
    · have hmem : property ∈ (d :: ds).map Prod.fst := List.mem_cons.2 (.inl hd.symm)
      rw [if_pos hd, if_pos hmem, List.map_cons, List.map_cons, hd]
    · have hmem : property ∈ (d :: ds).map Prod.fst ↔ property ∈ ds.map Prod.fst := by
        rw [List.map_cons, List.mem_cons, or_iff_right (Ne.symm hd)]
      rw [if_neg hd, List.map_cons, ih]
      simp only [hmem]
      split <;> rfl

/-- A property that is there is written where it is. -/
theorem declare_append_of_mem (h : property ∈ style.map Prod.fst) (value : String) (rest : List Declaration) :
    declare property value (style ++ rest) = declare property value style ++ rest := by
  induction style with
  | nil => cases h
  | cons d ds ih =>
    rw [List.cons_append, declare, declare]
    by_cases hd : d.1 = property
    · rw [if_pos hd, if_pos hd, List.cons_append]
    · rw [if_neg hd, if_neg hd, ih ((List.mem_cons.1 h).resolve_left (Ne.symm hd)), List.cons_append]

theorem declare_append_of_not_mem (h : property ∉ style.map Prod.fst) (value : String) (rest : List Declaration) :
    declare property value (style ++ rest) = style ++ declare property value rest := by
  induction style with
  | nil => rfl
  | cons d ds ih =>
    rw [List.map_cons, List.mem_cons, not_or] at h
    rw [List.cons_append, declare, if_neg (Ne.symm h.1), ih h.2, List.cons_append]

/-- Only the first entry of a property is written over. -/
theorem getElem?_declare (hthere : property ∈ style.map Prod.fst) {i : Nat}
    (h : ∀ d ∈ style[i]?, d.1 = property → property ∈ (style.take i).map Prod.fst) (value : String) :
    (declare property value style)[i]? = style[i]? := by
  induction style generalizing i with
  | nil => cases hthere
  | cons d ds ih =>
    rw [declare]
    by_cases hd : d.1 = property
    · rw [if_pos hd]
      cases i with
      | zero => exact absurd (h d rfl hd) List.not_mem_nil
      | succ i => rfl
    · rw [if_neg hd]
      cases i with
      | zero => rfl
      | succ i =>
        refine ih ((List.mem_cons.1 hthere).resolve_left (Ne.symm hd)) fun e he hep => ?_
        have hbefore := h e he hep
        rw [List.take_succ_cons, List.map_cons, List.mem_cons] at hbefore
        exact hbefore.resolve_left (Ne.symm hd)

/-- **A style that goes on** after declarations, in the entries that it had and those that were added. -/
structure Continues (ds old kept added : List Declaration) : Prop where
  /-- The entries keep their places and their properties. -/
  properties : kept.map Prod.fst = old.map Prod.fst
  /-- An entry has its value too, unless it is the first one of a property that is declared. -/
  values : ∀ i, (∀ d ∈ old[i]?, d.1 ∉ ds.map Prod.fst ∨ d.1 ∈ (old.take i).map Prod.fst) → kept[i]? = old[i]?
  /-- What was not there comes in the order in which it was declared first. -/
  order : added.map Prod.fst = ((ds.map Prod.fst).filter (· ∉ old.map Prod.fst)).eraseDups

theorem continues_nil (style : List Declaration) : Continues [] style style [] := ⟨rfl, fun _ _ => rfl, rfl⟩

theorem eraseDups_concat (ps : List String) (property : String) :
    (ps ++ [property]).eraseDups = if property ∈ ps then ps.eraseDups else ps.eraseDups ++ [property] := by
  rw [List.eraseDups_append]
  split
  · rename_i h
    simp [List.removeAll, h]
  · rename_i h
    simp [List.removeAll, h, List.eraseDups_cons]

/-- **One more declaration**, of a property that was there or of another one. -/
theorem Continues.step (h : Continues ds old kept added) (d : Declaration) : ∃ kept' added',
    declare d.1 d.2 (kept ++ added) = kept' ++ added' ∧ Continues (ds ++ [d]) old kept' added' := by
  by_cases hold : d.1 ∈ old.map Prod.fst
  · have hkept : d.1 ∈ kept.map Prod.fst := h.properties ▸ hold
    refine ⟨declare d.1 d.2 kept, added, declare_append_of_mem hkept d.2 added, ?_, fun i hi => ?_, ?_⟩
    · rw [map_fst_declare, if_pos hkept, h.properties]
    · have hsame : kept[i]? = old[i]? := h.values i fun e he => (hi e he).imp_left fun hno hmem => hno (by simp [hmem])
      rw [← hsame]
      refine getElem?_declare hkept (fun e he hed => ?_) d.2
      -- An entry of the property that is not the first one.
      rw [List.map_take, h.properties, ← List.map_take, ← hed]
      refine (hi e (hsame ▸ he)).resolve_left fun hno => hno ?_
      rw [List.map_append, hed]
      exact List.mem_append_right _ List.mem_cons_self
    · rw [h.order, List.map_append, List.filter_append]
      simp [hold]
  · have hkept : d.1 ∉ kept.map Prod.fst := h.properties ▸ hold
    refine ⟨kept, declare d.1 d.2 added, declare_append_of_not_mem hkept d.2 added, h.properties, fun i hi => ?_, ?_⟩
    · exact h.values i fun e he => (hi e he).imp_left fun hno hmem => hno (by simp [hmem])
    · have hfilter : ((ds ++ [d]).map Prod.fst).filter (· ∉ old.map Prod.fst) =
          (ds.map Prod.fst).filter (· ∉ old.map Prod.fst) ++ [d.1] := by
        rw [List.map_append, List.filter_append]
        simp [hold]
      rw [map_fst_declare, hfilter, eraseDups_concat, h.order]
      simp only [List.mem_eraseDups]

/-- **A style after declarations.** -/
theorem continues_declareAll (ds style : List Declaration) : ∃ kept added,
    declareAll ds style = kept ++ added ∧ Continues ds style kept added := by
  induction ds using List.reverseRecOn with
  | nil => exact ⟨style, [], (List.append_nil style).symm, continues_nil style⟩
  | append_singleton ds d ih =>
    obtain ⟨kept, added, hstyle, hcontinues⟩ := ih
    obtain ⟨kept', added', hdeclare, hstep⟩ := hcontinues.step d
    refine ⟨kept', added', ?_, hstep⟩
    rw [declareAll_append, hstyle, ← hdeclare]
    rfl

/-! ### Elements -/

/-- **An element that was restyled** by declarations. -/
structure Restyles (ds : List Declaration) (e e' : Element) : Prop where
  /-- Nothing but the style is another one. -/
  rest : e' = { e with style := e'.style }
  /-- A property has the value that was declared for it last. -/
  declared : ∀ front property value back, ds = front ++ (property, value) :: back →
    property ∉ back.map Prod.fst → e'.styleValue? property = some value
  /-- Of what was not declared the value is the same. -/
  others : ∀ property, property ∉ ds.map Prod.fst → e'.styleValue? property = e.styleValue? property
  entries : ∃ kept added, e'.style = kept ++ added ∧ Continues ds e.style kept added

theorem restyles_dress (ds : List Declaration) (e : Element) : e.Restyles ds (e.dress ds) := by
  have hother {ds : List Declaration} {property : String} (h : property ∉ ds.map Prod.fst) : ∀ d ∈ ds, d.1 ≠ property :=
    fun d hd hdp => h (hdp ▸ List.mem_map_of_mem hd)
  refine ⟨rfl, ?_, fun property h => valueIn?_declareAll (hother h) e.style, continues_declareAll ds e.style⟩
  rintro front property value back rfl hback
  show valueIn? property (declareAll (front ++ (property, value) :: back) e.style) = some value
  rw [declareAll_append, declareAll_cons, valueIn?_declareAll (hother hback), valueIn?_declare, if_pos rfl]

/-- **An element that lost a class**: all words of its class attribute that were that class are gone. -/
structure Declasses (className : String) (e e' : Element) : Prop where
  /-- Nothing but the attributes are others. -/
  rest : e' = { e with attrs := e'.attrs }
  attrs : ∀ key, key ≠ "class" → e'.attrs.get? key = e.attrs.get? key
  class_isSome : (e'.attrs.get? "class").isSome = (e.attrs.get? "class").isSome
  classes : e'.classes = e.classes.filter (· ≠ className)

theorem declasses_removeClass (className : String) (e : Element) :
    e.Declasses className (e.removeClass className) := by
  cases hc : e.attrs.get? "class" with
  | none =>
    have heq : e.removeClass className = e := by rw [removeClass, hc]
    have hclasses : e.classes = [] := by rw [classes, hc, Option.map_none, Option.getD_none]
    rw [heq]
    exact ⟨rfl, fun _ _ => rfl, rfl, by rw [hclasses, List.filter_nil]⟩
  | some text =>
    have heq : e.removeClass className =
        { e with attrs := e.attrs.insert "class" (join " " ((words text).filter (· ≠ className))) } := by
      rw [removeClass, hc]
    have hwords : words (join " " ((words text).filter (· ≠ className))) = (words text).filter (· ≠ className) :=
      words_join fun w hw => isWord_of_mem_words (List.mem_filter.1 hw).1
    rw [heq]
    refine ⟨rfl, fun key hk => ?_, ?_, ?_⟩
    · rw [Table.get?_insert, if_neg (Ne.symm hk)]
    · rw [Table.get?_insert, if_pos rfl, hc]
      rfl
    · rw [classes, classes, Table.get?_insert, if_pos rfl, hc, Option.map_some, Option.map_some, Option.getD_some,
        Option.getD_some, hwords]

end Element

/-! ### Pages -/

namespace Page

/-- **A page with a change made to some elements of its body.** -/
def changeAll (refs : List Nat) (f : Element → Element) (p : Page) : Page :=
  { p with body := p.body.map (changed refs f) }

variable {p : Page} {refs : List Nat}

/-- **A change made to elements of the body** leaves what lies loose. -/
theorem Numbered.foldl_update_eq (h : p.Numbered) (hrefs : refs.Sublist p.rooted) (f : Element → Element) :
    refs.foldl (fun p ref => p.update ref f) p = p.changeAll refs f := by
  have hloose : p.loose.map (changed refs f) = p.loose := by
    refine Forest.map_eq_self fun n hn => if_neg fun href => ?_
    -- What lies loose is not among the elements of the body.
    exact h.sides.2.2 n.ref (hrefs.subset href) n.ref (List.mem_map_of_mem hn) rfl
  rw [foldl_update (h.sides.1.sublist hrefs), hloose]
  rfl

/-- Selectors do not see which styles elements have. -/
theorem query_changeAll_dress (p : Page) (refs : List Nat) (ds : List Declaration) (selector : String) :
    (p.changeAll refs (·.dress ds)).query selector = p.query selector := by
  have hbare (n : Node) : (changed refs (·.dress ds) n).bare = n.bare := by
    unfold changed
    split <;> rfl
  have houtline : (p.changeAll refs (·.dress ds)).outline = p.outline := outline_map hbare rfl
  rw [query_eq, query_eq, houtline]

end Page

end PageSweep
