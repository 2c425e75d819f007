import PageSweep.Proofs.Page.Finding

/-!
# Inline styles

Declarations are written one after the other: one whose property is there already takes its place, any other
comes last. Once all of them were written, writing them again changes nothing, not even the order, though on
the way a property that is declared twice goes back to its first value.

A page is dressed by writing declarations to its elements, to each its own. Styling what a selector finds
dresses the page, one dressing after the other is a dressing, and selectors see none of it.

* `Element.declareAll_declareAll`: writing the same declarations again.
* `Page.styleAll_eq`: styling elements dresses the page.
* `Page.dress_dress`, `Page.dress_eq_self`: dressing again.
* `Page.outline_dress`: selectors do not see it.
-/

namespace PageSweep

namespace Element

/-- The value of the first declaration of a property. -/
def valueIn? (property : String) (style : List Declaration) : Option String :=
  (style.find? (·.1 == property)).map (·.2)

/-- Declarations written one after the other. -/
def declareAll (ds style : List Declaration) : List Declaration :=
  ds.foldl (fun style d => declare d.1 d.2 style) style

variable {property value : String} {style : List Declaration}

@[simp] theorem declareAll_nil (style : List Declaration) : declareAll [] style = style := rfl

@[simp] theorem declareAll_cons (d : Declaration) (ds style : List Declaration) :
    declareAll (d :: ds) style = declareAll ds (declare d.1 d.2 style) := rfl

theorem declareAll_append (ds es style : List Declaration) :
    declareAll (ds ++ es) style = declareAll es (declareAll ds style) := List.foldl_append

theorem valueIn?_declare (property value other : String) (style : List Declaration) :
    valueIn? other (declare property value style) =
      if property = other then some value else valueIn? other style := by
  induction style with
  | nil => by_cases ho : property = other <;> simp [declare, valueIn?, ho]
  | cons d ds ih =>
    unfold valueIn? at ih ⊢
    rw [declare]
    by_cases hd : d.1 = property
    · subst hd
      by_cases ho : d.1 = other <;> simp [ho]
    · rw [if_neg hd]
      by_cases ho : d.1 = other
      · have hne : property ≠ other := fun h => hd (ho.trans h.symm)
        simp [ho, hne]
      · rw [List.find?_cons_of_neg (by simpa using ho), List.find?_cons_of_neg (by simpa using ho), ih]

/-- A property keeps the value that it has. -/
theorem declare_eq_self (h : valueIn? property style = some value) : declare property value style = style := by
  induction style with
  | nil => simp [valueIn?] at h
  | cons d ds ih =>
    unfold valueIn? at h
    rw [declare]
    by_cases hd : d.1 = property
    · rw [List.find?_cons_of_pos (by simpa using hd), Option.map_some, Option.some.injEq] at h
      rw [if_pos hd, ← hd, ← h]
    · rw [List.find?_cons_of_neg (by simpa using hd)] at h
      rw [if_neg hd, ih h]

/-- **Two properties are written in any order**, if the one is there already. -/
theorem declare_comm {other : String} (hne : property ≠ other) (h : (valueIn? property style).isSome = true)
    (value value' : String) : declare property value (declare other value' style) =
      declare other value' (declare property value style) := by
  induction style with
  | nil => simp [valueIn?] at h
  | cons d ds ih =>
    by_cases hd : d.1 = property
    · subst hd
      simp [declare, hne]
    · by_cases ho : d.1 = other
      · subst ho
        simp [declare, Ne.symm hne]
      · have hrest : (valueIn? property ds).isSome = true := by
          unfold valueIn? at h ⊢
          rwa [List.find?_cons_of_neg (by simpa using hd)] at h
        simp [declare, hd, ho, ih hrest]

theorem isSome_declareAll (h : (valueIn? property style).isSome = true) (ds : List Declaration) :
    (valueIn? property (declareAll ds style)).isSome = true := by
  induction ds generalizing style with
  | nil => exact h
  | cons d ds ih =>
    refine ih ?_
    rw [valueIn?_declare]
    split
    · rfl
    · exact h

theorem valueIn?_declareAll {ds : List Declaration} (h : ∀ d ∈ ds, d.1 ≠ property) (style : List Declaration) :
    valueIn? property (declareAll ds style) = valueIn? property style := by
  induction ds generalizing style with
  | nil => rfl
  | cons d ds ih =>
    rw [declareAll_cons, ih fun e he => h e (List.mem_cons_of_mem _ he), valueIn?_declare,
      if_neg (h d List.mem_cons_self)]

/-- What is declared later on need not be written before. -/
theorem declareAll_declare {ds : List Declaration} (h : ∃ d ∈ ds, d.1 = property)
    (hthere : (valueIn? property style).isSome = true) (value : String) :
    declareAll ds (declare property value style) = declareAll ds style := by
  induction ds generalizing style with
  | nil =>
    obtain ⟨d, hd, -⟩ := h
    exact absurd hd List.not_mem_nil
  | cons d ds ih =>
    rw [declareAll_cons, declareAll_cons]
    by_cases hd : d.1 = property
    · rw [hd, declare_declare]
    · obtain ⟨e, he, hep⟩ := h
      have hlater : ∃ e ∈ ds, e.1 = property := by
        rcases List.mem_cons.1 he with rfl | he
        · exact absurd hep hd
        · exact ⟨e, he, hep⟩
      have hthere' : (valueIn? property (declare d.1 d.2 style)).isSome = true := by
        rw [valueIn?_declare, if_neg hd]
        exact hthere
      rw [← declare_comm (Ne.symm hd) hthere, ih hlater hthere']

/-- **Writing the same declarations again changes nothing.** -/
theorem declareAll_declareAll (ds style : List Declaration) :
    declareAll ds (declareAll ds style) = declareAll ds style := by
  induction ds generalizing style with
  | nil => rfl
  | cons d ds ih =>
    rw [declareAll_cons, declareAll_cons]
    have hvalue : valueIn? d.1 (declare d.1 d.2 style) = some d.2 := by rw [valueIn?_declare, if_pos rfl]
    generalize declare d.1 d.2 style = style' at hvalue
    by_cases hd : ∃ e ∈ ds, e.1 = d.1
    · -- The property is declared again, so its value here does not matter.
      have hthere := isSome_declareAll (by rw [hvalue]; rfl) ds
      rw [declareAll_declare hd hthere, ih]
    · -- The property is as it was written first.
      have hkept : ∀ e ∈ ds, e.1 ≠ d.1 := fun e he hed => hd ⟨e, he, hed⟩
      rw [declare_eq_self ((valueIn?_declareAll hkept style').trans hvalue), ih]

/-- An element with declarations written to its style. -/
def dress (ds : List Declaration) (e : Element) : Element := { e with style := declareAll ds e.style }

theorem dress_dress (ds es : List Declaration) (e : Element) : (e.dress ds).dress es = e.dress (ds ++ es) := by
  rw [dress, dress, dress, declareAll_append]

end Element

namespace Page

/-- A node with the declarations for its number written to its element. -/
def dressed (ds : Nat → List Declaration) (n : Node) : Node := ⟨n.ref, n.element.dress (ds n.ref)⟩

/-- **A page whose elements are dressed**, each with the declarations for its number. -/
def dress (ds : Nat → List Declaration) (p : Page) : Page :=
  { p with body := p.body.map (dressed ds), loose := p.loose.map (dressed ds) }

variable {p : Page} {ds es : Nat → List Declaration}

theorem nodes_dress (p : Page) (ds : Nat → List Declaration) : (p.dress ds).nodes = p.nodes.map (dressed ds) := by
  rw [nodes, nodes, List.map_append, ← Forest.preorder_map, ← Forest.preorder_map]
  rfl

theorem Numbered.dress (h : p.Numbered) (ds : Nat → List Declaration) : (p.dress ds).Numbered := by
  refine h.of_perm (.of_eq ?_) rfl
  rw [refs, nodes_dress, List.map_map]
  rfl

/-- **Selectors do not see how elements are dressed.** -/
theorem outline_dress (p : Page) (ds : Nat → List Declaration) : (p.dress ds).outline = p.outline :=
  outline_map (f := dressed ds) (fun _ => rfl) rfl

theorem found_dress (p : Page) (ds : Nat → List Declaration) (selector : String) :
    (p.dress ds).found selector = p.found selector := by
  refine found_eq ?_
  rw [query_eq, query_eq, outline_dress]

theorem dress_dress (p : Page) (ds es : Nat → List Declaration) :
    (p.dress ds).dress es = p.dress fun ref => ds ref ++ es ref := by
  have hnode : dressed es ∘ dressed ds = dressed fun ref => ds ref ++ es ref := by
    funext n
    simp only [Function.comp_apply, dressed, Element.dress_dress]
  simp only [dress, Forest.map_map, hnode]

/-- A page whose elements have what is written to them. -/
theorem dress_eq_self (h : ∀ n ∈ p.nodes, n.element.dress (ds n.ref) = n.element) : p.dress ds = p := by
  have hnode : ∀ n ∈ p.nodes, dressed ds n = n := fun n hn => by rw [dressed, h n hn]
  rw [dress, Forest.map_eq_self fun n hn => hnode n (List.mem_append_left _ hn),
    Forest.map_eq_self fun n hn => hnode n (List.mem_append_right _ hn)]

theorem dress_nil (p : Page) : p.dress (fun _ => []) = p := dress_eq_self fun _ _ => rfl

/-! ### Styling -/

/-- Writing declarations to an element is one change of it. -/
theorem setStyles_eq (p : Page) (ref : Nat) (ds : List Declaration) :
    ds.foldl (fun p d => p.setStyle ref d.1 d.2) p = p.update ref (·.dress ds) := by
  induction ds generalizing p with
  | nil =>
    have hnone (g : Forest Node) : g.map (updated ref (·.dress [])) = g :=
      Forest.map_eq_self fun n _ => by
        unfold updated
        split <;> rfl
    show p = { p with body := p.body.map (updated ref (·.dress [])), loose := p.loose.map (updated ref (·.dress [])) }
    rw [hnone, hnone]
  | cons d ds ih =>
    rw [List.foldl_cons, ih]
    exact p.update_update ref (·.setStyle d.1 d.2) (·.dress ds)

/-- **Styling different elements dresses the page.** -/
theorem styleAll_eq (p : Page) {found : List Nat} (h : found.Nodup) (ds : List Declaration) :
    found.foldl (fun p ref => ds.foldl (fun p d => p.setStyle ref d.1 d.2) p) p =
      p.dress fun r => if r ∈ found then ds else [] := by
  have hnode : changed found (·.dress ds) = dressed fun r => if r ∈ found then ds else [] := by
    funext n
    simp only [changed, dressed]
    split <;> rfl
  simp only [setStyles_eq, foldl_update h, hnode]
  rfl

end Page

end PageSweep
