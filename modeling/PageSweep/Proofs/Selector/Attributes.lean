import PageSweep.Proofs.Page.Finding
import PageSweep.Proofs.Page.Reachable
import PageSweep.Proofs.Selector.ReadBack

/-!
# Selecting by an attribute

A selector of one condition asks for an attribute, or for one with a value, which stands in quotes. The key that is
asked for is taken in lower case, as are the keys of elements that are added to a page; those of a snapshot stay as they
are. What stands in quotes is seen by none of the scans, but the condition itself ends at the first bracket that closes,
be it in quotes.

* `read_brackets`: a text in brackets is read as its condition, or not at all.
* `conditionOf?_name`, `conditionOf?_equals`, `conditionOf?_cut`: a key, a value in quotes, a value that is cut off.
* `query_condition`: what a condition finds on a page.
* `loaded_attribute_selected`: the attributes of a page that was loaded.
* `quoted_value_selected`: the values that can be asked for.
-/

namespace PageSweep

namespace Selector

open Text

variable {cs : List Char} {key : String} {q : Char}

/-! ### One condition -/

/-- The selector of one condition. -/
def ofCondition (c : AttrCondition) : Selector := [[⟨{ Step.any with conditions := [c] }, .descendant⟩]]

/-- A text in one piece is a chain of one step, or none. -/
theorem chainOf_tight {text : String} (h : Tight cs) (hne : cs ≠ []) : chainOf text cs = match stepOf? cs with
      | some s => .ok [⟨s, .descendant⟩]
      | none => .error (.selector text) := by
  have hpadded : padChild .outside cs = cs := by
    have happend : padChild .outside (cs ++ []) = cs ++ padChild .outside [] := padChild_tight h
    simpa [padChild] using happend
  have htokens : tokens? cs = some [cs] := by
    have happend : tokens? (cs ++ []) = (tokens? []).map (cs :: ·) :=
      tokens_tight h hne fun c hc => absurd hc (by simp)
    simpa [tokens_nil] using happend
  obtain ⟨ws, hpieces, htoks⟩ := Option.map_eq_some_iff.1 htokens
  have hfull : cs.isEmpty = false := by simpa using hne
  have hmark : cs ≠ ['>'] := by
    rintro rfl
    exact absurd (h.passes.1 rfl) (by decide)
  have hparts : partsOf? true false [cs] = (stepOf? cs).map fun s => [⟨s, .descendant⟩] := by
    rw [partsOf?, if_neg hmark]
    cases stepOf? cs <;> rfl
  rw [chainOf, trimList_firm h.firm]
  simp only [hfull, hpadded, hpieces, htoks, hparts, Bool.false_eq_true, if_false]
  cases stepOf? cs <;> rfl

/-- **A text in one piece** is read as a step, or not at all. -/
theorem read_tight {text : String} (h : Tight text.toList) (hne : text.toList ≠ []) :
    read text = match stepOf? text.toList with
      | some s => .ok [[⟨s, .descendant⟩]]
      | none => .error (.selector text) := by
  generalize htext : text.toList = cs at h hne
  have hgroups : pieces (· == ',') .outside cs = some [cs] := by
    have hpieces : pieces (· == ',') .outside (cs ++ []) = some (cs.foldr inFront [[]]) :=
      pieces_of_passes h.passes_comma rfl fun c hc => by simp [isComma, hc]
    rwa [foldr_inFront, List.append_nil] at hpieces
  rw [read, htext, hgroups]
  simp only [chainsOf, chainOf_tight h hne]
  cases stepOf? cs <;> rfl

/-- A step that starts with a bracket starts with a condition. -/
theorem stepOf?_bracket (cs : List Char) : stepOf? ('[' :: cs) =
    (readCondition? cs).bind fun x => readTests? cs.length { Step.any with conditions := [x.1] } x.2 := by
  rw [stepOf?_of_opening (.inr (.inr rfl)), List.length_cons, readTests?]
  rfl

/-- **A text in brackets** is read as its condition, or not at all. -/
theorem read_brackets {text : String} (htext : text.toList = '[' :: (cs ++ [']']))
    (h : Passes isBreak inside cs inside) (hclose : ']' ∉ cs) :
    read text = match conditionOf? (trimList cs) with
      | some c => .ok (ofCondition c)
      | none => .error (.selector text) := by
  have hcondition : readCondition? (cs ++ [']']) = (conditionOf? (trimList cs)).map fun c => (c, []) := by
    rw [readCondition?, cutAt_append hclose]
  rw [read_tight (htext ▸ tight_brackets h) (by simp [htext]), htext, stepOf?_bracket, hcondition]
  cases conditionOf? (trimList cs) with
  | none => rfl
  | some c => simp [readTests?, ofCondition]

/-- **A text in brackets that closes early** is not read, unless a condition ends there. -/
theorem read_brackets_cut {text : String} {before after : List Char}
    (htext : text.toList = '[' :: ((before ++ ']' :: after) ++ [']']))
    (h : Passes isBreak inside (before ++ ']' :: after) inside) (hclose : ']' ∉ before)
    (hcut : conditionOf? (trimList before) = none) : read text = .error (.selector text) := by
  have hcondition : readCondition? ((before ++ ']' :: after) ++ [']']) = none := by
    rw [List.append_assoc, List.cons_append, readCondition?, cutAt_append hclose]
    simp [hcut]
  rw [read_tight (htext ▸ tight_brackets h) (by simp [htext]), htext, stepOf?_bracket, hcondition]
  rfl

/-! ### What is asked -/

theorem isBlank_of_isQuote (h : IsQuote q) : isBlank q = false := by rcases h with rfl | rfl <;> rfl

theorem not_isNameChar_of_isQuote (h : IsQuote q) : isNameChar q = false := by rcases h with rfl | rfl <;> rfl

/-- Whether an attribute is there, asked by its key. -/
theorem conditionOf?_name (hkey : IsName key) :
    conditionOf? (trimList key.toList) = some ⟨lower key, .present⟩ := by
  have hmarks : ∀ c ∈ key.toList, (!isTestMark c) = true := fun c hc => by
    rw [isTestMark_of_isNameChar (hkey.2 c hc)]
    rfl
  have hname : keyOf? key.toList = some (lower key) := by simpa using keyOf?_gaps hkey gap_nil gap_nil
  rw [trimList_firm (tight_name hkey).firm, conditionOf?, List.dropWhile_eq_nil_iff.2 hmarks, hname]
  rfl

/-- What is asked of an attribute depends on what stands after its key. -/
theorem conditionOf?_key (hkey : IsName key) (cs : List Char) :
    conditionOf? (key.toList ++ '=' :: cs) = (valueOf? cs).map fun v => ⟨lower key, .equals v⟩ := by
  have hmarks : ∀ c ∈ key.toList, isTestMark c = false := fun c hc => isTestMark_of_isNameChar (hkey.2 c hc)
  obtain ⟨htake, hdrop⟩ := span_mark hmarks (d := '=') rfl cs
  have hname : keyOf? key.toList = some (lower key) := by simpa using keyOf?_gaps hkey gap_nil gap_nil
  rw [conditionOf?, htake, hdrop, hname, testOf?]
  cases valueOf? cs <;> rfl

/-- **A value in quotes** is asked for as it stands there. -/
theorem conditionOf?_equals (hq : IsQuote q) (hkey : IsName key) (v : List Char) :
    conditionOf? (trimList (key.toList ++ '=' :: (q :: (v ++ [q])))) =
      some ⟨lower key, .equals (String.ofList v)⟩ := by
  have hfirm : Firm (key.toList ++ '=' :: (q :: (v ++ [q]))) := by
    have hend := (tight_name hkey).firm.around (firm_singleton (isBlank_of_isQuote hq)) hkey.1 (by simp) ('=' :: q :: v)
    simpa using hend
  have hvalue : valueOf? (q :: (v ++ [q])) = some (String.ofList v) := by simpa using valueOf?_quoted hq gap_nil
  rw [trimList_firm hfirm, conditionOf?_key hkey, hvalue]
  rfl

/-- A quote that is not followed by another one begins no value. -/
theorem valueOf?_open (hq : IsQuote q) {v : List Char} (hv : q ∉ v) : valueOf? (q :: v) = none := by
  have hsolid : ∀ c ∈ [q], isBlank c = false := fun c hc => List.mem_singleton.1 hc ▸ isBlank_of_isQuote hq
  have htrim : trimList (q :: v) = q :: trimBack v := trimList_append_of_solid (by simp) hsolid v
  have hplain : (q :: trimBack v).all isNameChar = false := by simp [not_isNameChar_of_isQuote hq]
  rw [valueOf?, htrim, hplain]
  cases hrest : trimBack v with
  | nil => rfl
  | cons c r =>
    have hlast : (c :: r).getLast? ≠ some q := fun hmem =>
      hv ((trimBack_isPrefix v).subset (hrest ▸ List.mem_of_getLast? hmem))
    simp [hlast]

/-- **A value that is cut off** before its closing quote is none. -/
theorem conditionOf?_cut (hq : IsQuote q) (hkey : IsName key) {v : List Char} (hv : q ∉ v) :
    conditionOf? (trimList (key.toList ++ '=' :: q :: v)) = none := by
  have hsolid : ∀ c ∈ key.toList ++ ['=', q], isBlank c = false := by
    intro c hc
    simp only [List.mem_append, List.mem_cons, List.not_mem_nil, or_false] at hc
    rcases hc with hc | rfl | rfl
    · exact (plain_of_isNameChar (hkey.2 c hc)).1
    · rfl
    · exact isBlank_of_isQuote hq
  have htrim : trimList (key.toList ++ '=' :: q :: v) = key.toList ++ '=' :: q :: trimBack v := by
    simpa using trimList_append_of_solid (by simp) hsolid v
  rw [htrim, conditionOf?_key hkey, valueOf?_open hq fun hmem => hv ((trimBack_isPrefix v).subset hmem)]
  rfl

/-- The text of a value in quotes is passed over from bracket to bracket. -/
theorem passes_equals {bad : Char → Bool} (hq : IsQuote q) (hkey : IsName key) {v : List Char} (hv : q ∉ v) :
    Passes bad inside (key.toList ++ '=' :: q :: (v ++ [q])) inside := by
  have hopen : inside.next q = ⟨1, some q⟩ := by rcases hq with rfl | rfl <;> rfl
  have hclose : Nesting.next ⟨1, some q⟩ q = inside := by simp [Nesting.next, inside]
  have hout : ¬ Nesting.isOutside ⟨1, some q⟩ = true := by simp [Nesting.isOutside]
  have hquoted : Passes bad ⟨1, some q⟩ (v ++ [q]) inside :=
    (passes_quoted hv).append ⟨fun h => absurd h hout, hclose⟩
  refine (passes_inside_name hkey).append ⟨fun h => absurd h (by decide), fun h => absurd h (by decide), ?_⟩
  rw [show inside.next '=' = inside from rfl, hopen]
  exact hquoted

/-- **A value in quotes can be asked for** unless it has a bracket that closes. -/
theorem read_equals {value text : String} (hq : IsQuote q) (hkey : IsName key) (hvalue : q ∉ value.toList)
    (htext : text.toList = '[' :: ((key.toList ++ '=' :: q :: (value.toList ++ [q])) ++ [']'])) :
    read text =
      if ']' ∈ value.toList then .error (.selector text) else .ok (ofCondition ⟨lower key, .equals value⟩) := by
  have hpasses : Passes isBreak inside (key.toList ++ '=' :: q :: (value.toList ++ [q])) inside :=
    passes_equals hq hkey hvalue
  have hname : ']' ∉ key.toList := fun hmem => absurd (hkey.2 _ hmem) (by decide)
  have hmark : ']' ≠ q := by rcases hq with rfl | rfl <;> decide
  split
  · rename_i hmem
    obtain ⟨before, after, hsplit, hbefore⟩ := List.eq_append_cons_of_mem hmem
    rw [hsplit] at hvalue htext hpasses
    -- The condition ends in the quotes, which are open there.
    have hopen : q ∉ before := fun h => hvalue (List.mem_append_left _ h)
    have hsides : key.toList ++ '=' :: q :: ((before ++ ']' :: after) ++ [q]) =
        (key.toList ++ '=' :: q :: before) ++ ']' :: (after ++ [q]) := by simp
    rw [hsides] at htext hpasses
    refine read_brackets_cut htext hpasses ?_ (conditionOf?_cut hq hkey hopen)
    simp [hname, hmark, hbefore]
  · rename_i hmem
    rw [read_brackets htext hpasses (by simp [hname, hmark, hmem]), conditionOf?_equals hq hkey, String.ofList_toList]

theorem read_present {text : String} (hkey : IsName key) (htext : text.toList = '[' :: (key.toList ++ [']'])) :
    read text = .ok (ofCondition ⟨lower key, .present⟩) := by
  have hname : ']' ∉ key.toList := fun hmem => absurd (hkey.2 _ hmem) (by decide)
  rw [read_brackets htext (passes_inside_name hkey) hname, conditionOf?_name hkey]

end Selector

namespace Page

open Selector Text

variable {p : Page} {n : Node} {key : String}

/-- **What a condition finds**: the elements that meet it, in document order. -/
theorem query_condition (p : Page) {text : String} {c : AttrCondition}
    (hread : Selector.read text = .ok (ofCondition c)) :
    p.query text = .ok ((p.connected.filter fun n => c.isMatch n.element).map Node.ref) := by
  have hmatch : ∀ e above, Selector.isMatch (ofCondition c) e above = c.isMatch e := by
    intro e above
    simp [Selector.isMatch, ofCondition, Chain.isMatch, matchesBack, Step.isMatch, Step.any]
  rw [query, hread]
  simp only [hmatch]
  rw [connected, ← Forest.preorder_withAncestors [] p.body, List.filter_map, List.map_map]
  rfl

/-! ### Attributes that are there -/

/-- **An element is found by a key** if it has the key in lower case. -/
theorem Numbered.query_key (h : p.Numbered) (hn : n ∈ p.connected) (hkey : Selector.IsName key) :
    ∃ found, p.query ("[" ++ key ++ "]") = .ok found ∧
      (n.ref ∈ found ↔ (n.element.attrs.get? (lower key)).isSome = true) := by
  have htext : ("[" ++ key ++ "]").toList = '[' :: (key.toList ++ [']']) := by simp
  have hread := read_present hkey htext
  refine ⟨_, p.query_condition hread, ?_⟩
  have hnodup : (p.connected.map Node.ref).Nodup := h.sides.1
  rw [mem_map_filter_iff _ hnodup hn, AttrCondition.isMatch]
  cases n.element.attrs.get? (lower key) <;> simp [AttrTest.holds]

theorem element_of_added (h : p.Numbered) {parent : Option Nat} {e : Element} {n : Node}
    (hn : n ∈ (p.append parent e).1.connected) (href : n.ref = (p.append parent e).2) : n.element = e := by
  have hnumber : (p.append parent e).2 = p.next := by cases parent <;> rfl
  rcases mem_nodes_append (List.mem_append_left _ hn) with rfl | hold
  · rfl
  · have hlt := h.lt n.ref (List.mem_map_of_mem hold)
    omega

/-- The attributes of an element that is added are found by their keys, however these are written. -/
theorem Numbered.query_added (h : p.Numbered) (parent : Option Nat) (tag : String) {attrs : List (String × String)}
    (hattr : key ∈ attrs.map Prod.fst) (hkey : Selector.IsName key)
    (hplace : (p.add parent tag attrs).2 ∈ (p.add parent tag attrs).1.rooted) :
    ∃ found, (p.add parent tag attrs).1.query ("[" ++ key ++ "]") = .ok found ∧ (p.add parent tag attrs).2 ∈ found := by
  obtain ⟨n, hn, href⟩ := List.mem_map.1 hplace
  obtain ⟨found, hfound, hmem⟩ := (h.append parent (.ofTag tag attrs)).query_key hn hkey
  refine ⟨found, hfound, href ▸ hmem.2 ?_⟩
  rw [element_of_added h hn href]
  refine Entries.isSome_get?_ofList.2 ?_
  rw [List.map_map]
  obtain ⟨a, ha, rfl⟩ := List.mem_map.1 hattr
  exact List.mem_map_of_mem (f := Prod.fst ∘ _) ha

/-- **The attributes of a page that was loaded.** Asking for one by its key finds its element exactly if the element has
the key in lower case, as it does if the key has no capitals. An element of the same attributes that is added to a page
is found by each of its keys. -/
theorem loaded_attribute_selected {s : Snapshot} (hn : n ∈ (ofSnapshot s).1.connected) {value : String}
    (hattr : n.element.attrs.get? key = some value) (hkey : Selector.IsName key) :
    let text := "[" ++ key ++ "]"
    (∃ found, (ofSnapshot s).1.query text = .ok found ∧
      (n.ref ∈ found ↔ (n.element.attrs.get? (lower key)).isSome = true) ∧ (lower key = key → n.ref ∈ found)) ∧
    ∀ p : Page, p.Numbered → ∀ parent tag,
      let added := p.add parent tag n.element.attrs.entries
      added.2 ∈ added.1.rooted → ∃ found, added.1.query text = .ok found ∧ added.2 ∈ found := by
  intro text
  obtain ⟨found, hfound, hmem⟩ := (numbered_ofSnapshot s).query_key hn hkey
  refine ⟨⟨found, hfound, hmem, fun hlower => hmem.2 ?_⟩, ?_⟩
  · rw [hlower, hattr]
    rfl
  · intro p hp parent tag added hplace
    exact hp.query_added parent tag (List.mem_map_of_mem (f := Prod.fst) (Entries.mem_of_get? hattr)) hkey hplace

/-- Two elements with one key, written with capitals; the first one has it in lower case as well. -/
def rolesSnapshot : Snapshot :=
  ⟨"shop.example", "/", true, [], .empty,
    .cons ⟨"div", none, none, .ofList [("Data-Role", "a"), ("data-role", "b")], [], 0⟩ .nil
      (.tree ⟨"p", none, none, .ofList [("Data-Role", "c")], [], 0⟩ .nil)⟩

theorem loaded_attribute_selected_roles :
    let e : Element := ⟨"div", .ofList [("Data-Role", "a"), ("data-role", "b")], [], 0⟩
    let added := (Page.new "shop.example").add none "div" e.attrs.entries
    ⟨1, e⟩ ∈ (ofSnapshot rolesSnapshot).1.connected ∧ e.attrs.get? "Data-Role" = some "a" ∧
      Selector.IsName "Data-Role" ∧
      (ofSnapshot rolesSnapshot).1.query "[Data-Role]" = .ok [1] ∧
      ∃ found, added.1.query "[Data-Role]" = .ok found ∧ 1 ∈ found := by
  intro e added
  have hn : ⟨1, e⟩ ∈ (ofSnapshot rolesSnapshot).1.connected := by decide +kernel
  have hattr : e.attrs.get? "Data-Role" = some "a" := by decide
  have hname : Selector.IsName "Data-Role" := by decide
  have hadded := (loaded_attribute_selected hn hattr hname).2 (.new "shop.example") (numbered_new _) none "div"
    (by decide)
  exact ⟨hn, hattr, hname, by decide +kernel, hadded⟩

/-- **A key with capitals that was loaded is not found**, even if it is asked for as it is written. -/
theorem capital_key_unselected :
    let e : Element := ⟨"p", .ofList [("Data-Role", "c")], [], 0⟩
    ⟨2, e⟩ ∈ (ofSnapshot rolesSnapshot).1.connected ∧ e.attrs.get? "Data-Role" = some "c" ∧
      Selector.IsName "Data-Role" ∧
      (ofSnapshot rolesSnapshot).1.query "[Data-Role]" = .ok [1] ∧
      ((Page.new "shop.example").add none "p" [("Data-Role", "c")]).1.query "[Data-Role]" = .ok [1] := by
  decide +kernel

/-! ### Values -/

/-- **The values that can be asked for.** A value in quotes, double or single ones, is free to have all that separates
selectors in it. What is found are the elements of which the attribute has the value, no more and no less, unless the
value has a bracket that closes: then the selector is refused. -/
theorem quoted_value_selected (p : Page) {q : Char} (hq : IsQuote q) {value : String} (hkey : Selector.IsName key)
    (hlower : lower key = key) (hvalue : q ∉ value.toList) :
    let text := "[" ++ key ++ "=" ++ String.singleton q ++ value ++ String.singleton q ++ "]"
    p.query text = if ']' ∈ value.toList then .error (.selector text)
      else .ok ((p.connected.filter fun n => n.element.attrs.get? key = some value).map Node.ref) := by
  intro text
  have htext : text.toList = '[' :: ((key.toList ++ '=' :: q :: (value.toList ++ [q])) ++ [']']) := by simp [text]
  have hread := read_equals hq hkey hvalue htext
  split
  · rename_i hmem
    rw [if_pos hmem] at hread
    rw [query, hread]
  · rename_i hmem
    rw [if_neg hmem, hlower] at hread
    rw [p.query_condition hread]
    have hmatch : ∀ e : Element, AttrCondition.isMatch ⟨key, .equals value⟩ e =
        decide (e.attrs.get? key = some value) := by
      intro e
      rw [AttrCondition.isMatch]
      cases e.attrs.get? key <;> simp [AttrTest.holds, Bool.beq_eq_decide_eq]
    simp only [hmatch]

/-- Two elements whose titles are hard to tell apart from what is around them. -/
def titlesPage : Page :=
  (((Page.new "shop.example").add none "div" [("title", ", > [k='v")]).1.add none "p" [("title", "a]b")]).1

theorem quoted_value_selected_titles :
    IsQuote '"' ∧ Selector.IsName "title" ∧ lower "title" = "title" ∧ '"' ∉ ", > [k='v".toList ∧
      titlesPage.query "[title=\", > [k='v\"]" = .ok [1] := by
  have hkey : Selector.IsName "title" := by decide
  have hvalue : '"' ∉ ", > [k='v".toList := by decide
  have hquery := quoted_value_selected titlesPage (.inl rfl : IsQuote '"') hkey rfl hvalue
  have htext : "[title=\", > [k='v\"]" =
      "[" ++ "title" ++ "=" ++ String.singleton '"' ++ ", > [k='v" ++ String.singleton '"' ++ "]" := by decide
  refine ⟨.inl rfl, hkey, rfl, hvalue, ?_⟩
  rw [htext, hquery]
  decide +kernel

/-- **A bracket ends a condition in its quotes**, so what is there cannot be asked for. -/
theorem bracket_ends_quoted_value :
    let e : Element := .ofTag "p" [("title", "a]b")]
    ⟨2, e⟩ ∈ titlesPage.connected ∧ e.attrs.get? "title" = some "a]b" ∧
      titlesPage.query "[title=\"a]b\"]" = .error (.selector "[title=\"a]b\"]") ∧
      titlesPage.query "[title='a]b']" = .error (.selector "[title='a]b']") := by
  decide +kernel

end Page

end PageSweep
