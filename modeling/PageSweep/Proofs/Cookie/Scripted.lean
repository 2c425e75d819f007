import PageSweep.Proofs.Cookie.Directive
import PageSweep.Proofs.Cookie.Header

/-!
# What scripts write, scripts read

A jar that only scripts have written can be read back by them, whatever their directives say. A directive is cut at its
semicolons and its first piece at the first equals sign, and both sides are trimmed; so no mark at which a header is cut
gets into the name or the value of a cookie.

* `CookieDirective.isReadable_cookie`: what a directive stores can be read back.
* `CookieJar.readable_writeAll`: so can a jar after any directives.
* `Cookie.isFor_iff`: which cookies the page at a path is shown.
* `headerNames_writeAll`: the names that scripts read are those of the cookies for their page.
-/

namespace PageSweep

open Text

/-! ### Which cookies a page is shown -/

/-- **A cookie is for a page** if its path is the path of the page, or if that goes on in the directory of its path. -/
def Cookie.IsFor (c : Cookie) (page : String) : Prop :=
  page = c.path ∨ (∃ rest, page = c.path ++ "/" ++ rest) ∨
    ∃ dir rest, c.path = dir ++ "/" ∧ page = c.path ++ rest

theorem Cookie.isFor_iff {c : Cookie} {page : String} : c.IsFor page ↔ pathCovers c.path page = true := by
  have hslash : ∀ rest : String, c.path ++ "/" ++ rest = c.path ++ String.ofList ('/' :: rest.toList) := by
    intro rest
    rw [String.append_assoc, ← String.toList_inj]
    simp only [String.toList_append, String.toList_ofList]
    rfl
  unfold IsFor pathCovers
  constructor
  · intro h
    obtain ⟨rest, hpage, hcovers⟩ : ∃ rest, page = c.path ++ String.ofList rest ∧
        (rest.isEmpty || endsWith "/" c.path || rest.head? == some '/') = true := by
      rcases h with hsame | ⟨below, hbelow⟩ | ⟨dir, rest, hdir, hrest⟩
      · exact ⟨[], by rw [hsame, String.ofList_nil, String.append_empty], rfl⟩
      · exact ⟨'/' :: below.toList, by rw [hbelow, hslash], by simp⟩
      · have hends : endsWith "/" c.path = true := endsWith_iff.2 ⟨dir, hdir⟩
        exact ⟨rest.toList, by rw [hrest, String.ofList_toList], by simp [hends]⟩
    rw [after?_toList_iff.2 hpage]
    exact hcovers
  · intro h
    split at h
    · cases h
    · rename_i rest hafter
      have hpage : page = c.path ++ String.ofList rest := after?_toList_iff.1 hafter
      simp only [Bool.or_eq_true, beq_iff_eq, List.isEmpty_iff] at h
      rcases h with (hnil | hends) | hhead
      · rw [hnil, String.ofList_nil, String.append_empty] at hpage
        exact .inl hpage
      · obtain ⟨dir, hdir⟩ := endsWith_iff.1 hends
        exact .inr (.inr ⟨dir, String.ofList rest, hdir, hpage⟩)
      · obtain ⟨below, hbelow⟩ := List.head?_eq_some_iff.1 hhead
        refine .inr (.inl ⟨String.ofList below, ?_⟩)
        rw [hslash, String.toList_ofList, ← hbelow]
        exact hpage

instance (c : Cookie) (page : String) : Decidable (c.IsFor page) := decidable_of_iff _ Cookie.isFor_iff.symm

/-- The page is shown the cookies that are for it. -/
theorem CookieJar.visible_eq (jar : CookieJar) : jar.visible = jar.cookies.filter (·.IsFor jar.pagePath) := by
  refine List.filter_congr fun c _ => ?_
  rw [Bool.eq_iff_iff, decide_eq_true_iff, Cookie.isFor_iff]

/-! ### Jars that scripts wrote -/

/-- What is left of a name after cutting and trimming can be read back. -/
theorem isCookieName_of_cut {first name value : List Char} (hfirst : ';' ∉ first)
    (hcut : cutAt '=' first = some (name, value)) (hne : trimList name ≠ []) :
    IsCookieName (String.ofList (trimList name)) := by
  obtain ⟨hsplit, hequals⟩ := cutAt_eq_some hcut
  have hsub : ∀ c ∈ trimList name, c ∈ name := fun c hc => (trimList_sublist name).subset hc
  refine ⟨fun h => hne ?_, ?_, ?_, ?_⟩
  · rw [← String.toList_ofList (l := trimList name), h]
    rfl
  · rw [trim, String.toList_ofList, trimList_idem]
  · rw [String.toList_ofList]
    exact fun hm => hequals (hsub _ hm)
  · rw [String.toList_ofList]
    intro hm
    have hin : ';' ∈ first := hsplit ▸ List.mem_append_left _ (hsub _ hm)
    exact hfirst hin

/-- **What a directive stores can be read back**, whatever else it says. -/
theorem CookieDirective.isReadable_cookie {text : List Char} {d : CookieDirective} (h : ofText? text = some d) :
    d.cookie.IsReadable := by
  unfold ofText? at h
  split at h
  · cases h
  · rename_i first pieces hsplit
    have hfirst : ';' ∉ first := by
      intro hm
      have hmem : first ∈ splitAny (· == ';') text := by
        rw [← Text.splitAt, hsplit]
        exact List.mem_cons_self
      have hmark := mem_splitAny hmem ';' hm
      simp at hmark
    split at h
    · cases h
    · rename_i name value hcut
      split at h
      · cases h
      · rename_i hne
        rw [List.isEmpty_iff] at hne
        cases h
        obtain ⟨hparts, -⟩ := cutAt_eq_some hcut
        refine ⟨isCookieName_of_cut hfirst hcut hne, ?_⟩
        show ';' ∉ (String.ofList (trimList value)).toList
        rw [String.toList_ofList]
        intro hm
        have hvalue : ';' ∈ value := (trimList_sublist value).subset hm
        have hin : ';' ∈ first := hparts ▸ List.mem_append_right _ (List.mem_cons_of_mem _ hvalue)
        exact hfirst hin

namespace CookieJar

variable {jar : CookieJar}

/-- A write stores nothing but the cookie of its directive. -/
theorem readable_write (h : ∀ c ∈ jar.cookies, c.IsReadable) (text : String) (now : Instant) :
    ∀ c ∈ (jar.write text now).cookies, c.IsReadable := by
  rw [write_eq]
  cases hd : CookieDirective.ofText? text.toList with
  | none => exact h
  | some d =>
    simp only
    split
    · intro c hc
      rw [cookies_settle] at hc
      rcases List.mem_append.1 hc with hold | hnew
      · exact h c (List.mem_of_mem_filter hold)
      · have hcookie : c = d.cookie := by
          unfold left at hnew
          split at hnew
          · simp at hnew
          · simpa using hnew
        rw [hcookie]
        exact CookieDirective.isReadable_cookie hd
    · exact h

/-- The jar after directives, each carried out at its moment. -/
def writeAll (jar : CookieJar) (ts : List (String × Instant)) : CookieJar :=
  ts.foldl (fun jar t => jar.write t.1 t.2) jar

theorem pagePath_writeAll (jar : CookieJar) (ts : List (String × Instant)) :
    (jar.writeAll ts).pagePath = jar.pagePath := by
  induction ts generalizing jar with
  | nil => rfl
  | cons t ts ih => exact (ih (jar.write t.1 t.2)).trans (pagePath_write t.1 t.2)

/-- **A jar that scripts wrote can be read back**, if it could before. -/
theorem readable_writeAll (h : ∀ c ∈ jar.cookies, c.IsReadable) (ts : List (String × Instant)) :
    ∀ c ∈ (jar.writeAll ts).cookies, c.IsReadable := by
  induction ts generalizing jar with
  | nil => exact h
  | cons t ts ih => exact ih (readable_write h t.1 t.2)

end CookieJar

/-- **Scripts find the names that they wrote.** Whatever directives are carried out on the empty jar of a host, at
whatever moments, the names that are found in what its page reads are the names of the cookies for the path of the
page, one for each cookie and in the order of the jar. A path that is not absolute stands for the root. -/
theorem headerNames_writeAll (host path : String) (ts : List (String × Instant)) :
    let page := if startsWith "/" path then path else rootPath
    let jar := ((CookieJar.new host).withPagePath path).writeAll ts
    headerNames jar.header = (jar.cookies.filter (·.IsFor page)).map (·.name) := by
  intro page jar
  have hpage : jar.pagePath = page := by
    rw [show jar = _ from rfl, CookieJar.pagePath_writeAll, CookieJar.withPagePath]
    show (if _ then _ else _ : CookieJar).pagePath = if _ then _ else _
    split <;> rfl
  have hempty : ((CookieJar.new host).withPagePath path).cookies = [] := by
    unfold CookieJar.withPagePath
    split <;> rfl
  have hreadable : ∀ c ∈ jar.cookies, c.IsReadable :=
    CookieJar.readable_writeAll (fun c hc => absurd (hempty ▸ hc) List.not_mem_nil) ts
  rw [headerNames_header fun c hc => hreadable c (List.mem_of_mem_filter hc), CookieJar.visible_eq, hpage]

/-- A shop writes cookies for the whole host and for its cart, one of them with marks in its value. -/
example :
    let jar := ((CookieJar.new "shop.example").withPagePath "/cart/1").writeAll
      [("sid = a=b ; path=/cart", .epoch), ("sid=2", .epoch), ("deep=3; path=/cart/12", .epoch), ("=4", .epoch)]
    jar.header = "sid=a=b; sid=2" ∧ headerNames jar.header = ["sid", "sid"] := by
  decide

end PageSweep
