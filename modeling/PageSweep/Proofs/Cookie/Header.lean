import Mathlib.Data.List.Basic
import PageSweep.Cookie.Jar
import PageSweep.Proofs.Text.Pieces

/-!
# What a script reads of a jar

A script reads the cookies of a page as one text, with an equals sign in each and semicolons between them, and finds
the names in it by cutting it up again. Those are the names of the cookies if no name and no value holds a mark at
which the text is cut, and no name blanks that are trimmed away.

* `headerNames_header`: the names in what a script reads.
-/

namespace PageSweep

open Text

/-- **A name that can be read back**: not empty, without blanks at its ends, and without the marks of a header. -/
structure IsCookieName (name : String) : Prop where
  ne_empty : name ≠ ""
  trimmed : trim name = name
  equals : '=' ∉ name.toList
  semicolon : ';' ∉ name.toList

/-- A cookie whose name can be read back from a header. -/
structure Cookie.IsReadable (c : Cookie) : Prop where
  name : IsCookieName c.name
  value : ';' ∉ c.value.toList

instance (name : String) : Decidable (IsCookieName name) :=
  decidable_of_iff (name ≠ "" ∧ trim name = name ∧ '=' ∉ name.toList ∧ ';' ∉ name.toList)
    ⟨fun ⟨hne, htrim, heq, hsemi⟩ => ⟨hne, htrim, heq, hsemi⟩,
      fun h => ⟨h.ne_empty, h.trimmed, h.equals, h.semicolon⟩⟩

instance (c : Cookie) : Decidable c.IsReadable :=
  decidable_of_iff (IsCookieName c.name ∧ ';' ∉ c.value.toList)
    ⟨fun ⟨hname, hvalue⟩ => ⟨hname, hvalue⟩, fun h => ⟨h.name, h.value⟩⟩

/-- The name in a piece of a header. -/
def nameInPair? (pair : List Char) : Option String :=
  let name := trimList (pair.takeWhile (· ≠ '='))
  if name.isEmpty then none else some (String.ofList name)

theorem headerNames_eq (header : String) :
    headerNames header = (splitAt ';' header.toList).filterMap nameInPair? := by
  rw [headerNames, List.filterMap_map]
  rfl

theorem trimList_cons {c : Char} (hc : isBlank c = true) (cs : List Char) : trimList (c :: cs) = trimList cs := by
  simp [trimList, trimFront, hc]

/-- The name of a cookie in its piece of a header, which may have a blank in front. -/
theorem nameInPair?_of_isCookieName {name : String} (h : IsCookieName name) {gap : List Char}
    (hgap : gap = [] ∨ gap = [' ']) (value : List Char) :
    nameInPair? (gap ++ (name.toList ++ '=' :: value)) = some name := by
  have htake := takeWhile_ne_append h.equals value
  have htrim := trimList_of_trim h.trimmed
  have hname : trimList ((gap ++ (name.toList ++ '=' :: value)).takeWhile (· ≠ '=')) = name.toList := by
    rcases hgap with rfl | rfl
    · rw [List.nil_append, htake, htrim]
    · rw [List.singleton_append, List.takeWhile_cons_of_pos (by decide), htake, trimList_cons (by decide), htrim]
  unfold nameInPair?
  simp only [hname]
  rw [if_neg (by simpa using h.ne_empty), String.ofList_toList]

/-- The piece of a cookie in a header. -/
def Cookie.pair (c : Cookie) : List Char := c.name.toList ++ '=' :: c.value.toList

theorem toList_header (jar : CookieJar) :
    jar.header.toList = joinList [';', ' '] (jar.visible.map Cookie.pair) := by
  have hpair : ∀ c : Cookie, (c.name ++ "=" ++ c.value).toList = c.pair := by
    intro c
    rw [String.toList_append, String.toList_append, List.append_assoc]
    rfl
  rw [CookieJar.header, join, String.toList_ofList, List.map_map]
  exact congrArg (joinList [';', ' ']) (List.map_congr_left fun c _ => hpair c)

/-- **The names in what a script reads** are those of the cookies that its page sees, one by one. -/
theorem headerNames_header {jar : CookieJar} (h : ∀ c ∈ jar.visible, c.IsReadable) :
    headerNames jar.header = jar.visible.map (·.name) := by
  have hfree : ∀ c ∈ jar.visible, ';' ∉ c.pair := by
    intro c hc hm
    rcases List.mem_append.1 hm with hm | hm
    · exact (h c hc).name.semicolon hm
    · rcases List.mem_cons.1 hm with hm | hm
      · cases hm
      · exact (h c hc).value hm
  rw [headerNames_eq, toList_header]
  generalize jar.visible = cs at h hfree ⊢
  cases cs with
  | nil => rfl
  | cons c cs =>
    have hcut : splitAt ';' (joinList [';', ' '] (c.pair :: cs.map Cookie.pair)) =
        c.pair :: (cs.map Cookie.pair).map ([' '] ++ ·) :=
      splitAt_joinList (by decide) (by simpa using hfree)
    have hfirst : nameInPair? c.pair = some c.name :=
      nameInPair?_of_isCookieName (h c List.mem_cons_self).name (.inl rfl) c.value.toList
    have hrest : ∀ d ∈ cs, nameInPair? ([' '] ++ d.pair) = some d.name := fun d hd =>
      nameInPair?_of_isCookieName (h d (List.mem_cons_of_mem _ hd)).name (.inr rfl) d.value.toList
    rw [List.map_cons, hcut, List.filterMap_cons_some hfirst, List.map_map, List.filterMap_map, List.map_cons]
    exact congrArg (c.name :: ·) (List.filterMap_eq_map_iff_forall_eq_some.2 hrest)

end PageSweep
