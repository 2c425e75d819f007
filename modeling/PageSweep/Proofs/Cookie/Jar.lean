import PageSweep.Cookie.Jar
import PageSweep.Proofs.Text.Pieces

/-!
# What a jar holds

A jar never holds two cookies of one key, and the domains in it are normal ones of its host, if the host is
free of blanks. Such a jar comes out the same when its cookies are put in again.

* `CookieWrite.apply_cases`: all that an attribute can do to a write.
* `Sound.insert`, `Sound.write`: putting cookies in and carrying out directives.
* `Sound.foldl_insert`: putting the cookies of a jar in again.
-/

namespace PageSweep

open Text

/-! ### Domains -/

theorem mem_of_domainCovers {domain host : String} (h : domainCovers domain host = true) :
    ∀ c ∈ domain.toList, c ∈ host.toList := by
  rw [domainCovers, Bool.or_eq_true] at h
  rcases h with h | h
  · rw [beq_iff_eq] at h
    subst h
    exact fun c hc => hc
  · obtain ⟨r, hr⟩ := endsWithList_iff.1 h
    intro c hc
    rw [hr, String.toList_append]
    exact List.mem_append_right _ (List.mem_append_right _ hc)

/-- **A domain of a host that is free of blanks is stored as it is**: what trimming would change is not in
the host. -/
theorem normalizeDomain_idem {domain host : String} (hhost : ∀ c ∈ host.toList, isBlank c = false)
    (h : domainCovers (normalizeDomain domain) host = true) :
    normalizeDomain (normalizeDomain domain) = normalizeDomain domain := by
  have hblank : ∀ c ∈ (normalizeDomain domain).toList, isBlank c = false := fun c hc =>
    hhost c (mem_of_domainCovers h c hc)
  have hdot : (normalizeDomain domain).toList.dropWhile (· == '.') = (normalizeDomain domain).toList := by
    rw [normalizeDomain, String.toList_ofList]
    generalize trimList domain.toList = cs
    induction cs with
    | nil => rfl
    | cons c cs ih =>
      by_cases hc : c = '.'
      · rw [List.dropWhile_cons, if_pos (by simp [hc])]
        exact ih
      · have hc' : c.toLower ≠ '.' := fun h => hc (toLower_eq_dot h)
        simp [hc, lowerList, hc']
  have hlower : lowerList (normalizeDomain domain).toList = (normalizeDomain domain).toList := by
    rw [normalizeDomain, String.toList_ofList, lowerList_idem]
  rw [normalizeDomain, trimList_eq_self hblank, hdot, hlower, String.ofList_toList]

/-- A cookie that a host may store: its domain, if it has one, is a normal one of the host. -/
def Cookie.IsOf (host : String) (c : Cookie) : Prop :=
  ∀ d ∈ c.domain, normalizeDomain d = d ∧ domainCovers d host = true

/-! ### Writes -/

namespace CookieWrite

variable {host : String} {now : Instant} {w w' : CookieWrite}

/-- What stands around the first equals sign of an attribute. -/
theorem keyAndValue_append {key : List Char} (h : '=' ∉ key) (value : List Char) :
    keyAndValue (key ++ '=' :: value) = (lowerList (trimList key), trimList value) := by
  rw [keyAndValue, cutAt_append h]

/-- **All that an attribute can do to a write.** -/
theorem apply_cases {piece : List Char} (h : w.apply host now piece = some w') :
    (∃ expired, w' = { w with expired := expired }) ∨
    (∃ path, w' = { w with cookie := { w.cookie with path := path } }) ∨
    (∃ domain, domainCovers (normalizeDomain domain) host = true ∧
      w' = { w with cookie := { w.cookie with domain := some (normalizeDomain domain) } }) := by
  have hsame : some w = some w' → ∃ expired, w' = { w with expired := expired } := fun h =>
    ⟨w.expired, by cases h; rfl⟩
  unfold apply at h
  simp only at h
  split at h
  · split at h
    · cases h; exact .inl ⟨_, rfl⟩
    · exact .inl (hsame h)
  · split at h
    · cases h; exact .inl ⟨_, rfl⟩
    · exact .inl (hsame h)
  · split at h
    · cases h; exact .inr (.inl ⟨_, rfl⟩)
    · exact .inl (hsame h)
  · split at h
    · exact .inl (hsame h)
    · split at h
      · rename_i hc
        cases h
        exact .inr (.inr ⟨_, hc, rfl⟩)
      · cases h
  · exact .inl (hsame h)

theorem applyAll_append (pieces pieces' : List (List Char)) :
    applyAll host now (pieces ++ pieces') w =
      (applyAll host now pieces w).bind (applyAll host now pieces') := by
  induction pieces generalizing w with
  | nil => rfl
  | cons piece pieces ih =>
    rw [List.cons_append, applyAll, applyAll]
    cases w.apply host now piece with
    | none => rfl
    | some w' => exact ih

theorem isOf_applyAll (hhost : ∀ c ∈ host.toList, isBlank c = false) {pieces : List (List Char)}
    (hw : w.cookie.IsOf host) (h : applyAll host now pieces w = some w') : w'.cookie.IsOf host := by
  induction pieces generalizing w with
  | nil => cases h; exact hw
  | cons piece pieces ih =>
    rw [applyAll] at h
    obtain ⟨w₁, h₁, h₂⟩ := Option.bind_eq_some_iff.1 h
    refine ih ?_ h₂
    obtain ⟨expired, rfl⟩ | ⟨path, rfl⟩ | ⟨domain, hc, rfl⟩ := apply_cases h₁
    · exact hw
    · exact hw
    · intro d hd
      cases hd
      exact ⟨normalizeDomain_idem hhost hc, hc⟩

theorem isOf_ofDirective (hhost : ∀ c ∈ host.toList, isBlank c = false) {directive : String}
    (h : ofDirective? host directive now = some w) : w.cookie.IsOf host := by
  unfold ofDirective? at h
  split at h
  · cases h
  · split at h
    · cases h
    · simp only at h
      split at h
      · cases h
      · exact isOf_applyAll hhost (fun d hd => by cases hd) h

end CookieWrite

namespace CookieJar

/-- **What a jar holds**: cookies of different keys that its host may store, for a page at a path. -/
structure Sound (jar : CookieJar) : Prop where
  path : startsWith "/" jar.pagePath = true
  apart : jar.cookies.Pairwise fun a b => a.sameKey b = false
  domains : ∀ c ∈ jar.cookies, c.IsOf jar.host

theorem sound_new (host : String) : (new host).Sound :=
  ⟨(by decide : startsWith "/" rootPath = true), .nil, fun c hc => absurd hc List.not_mem_nil⟩

variable {jar : CookieJar}

/-! ### A jar is of one host -/

@[simp] theorem host_withPagePath (path : String) : (jar.withPagePath path).host = jar.host := by
  unfold withPagePath
  split <;> rfl

@[simp] theorem host_insert (c : Cookie) : (jar.insert c).host = jar.host := by
  unfold insert
  simp only
  split <;> rfl

theorem pagePath_insert (c : Cookie) : (jar.insert c).pagePath = jar.pagePath := by
  unfold insert
  simp only
  split <;> rfl

/-- What no cookie changes that is put in, many do not change either. -/
theorem foldl_insert_keeps {β : Type} (view : CookieJar → β) (h : ∀ jar c, view (jar.insert c) = view jar)
    (cs : List Cookie) (jar : CookieJar) : view (cs.foldl CookieJar.insert jar) = view jar := by
  induction cs generalizing jar with
  | nil => rfl
  | cons c cs ih => exact (ih (jar.insert c)).trans (h jar c)

@[simp] theorem host_write (directive : String) (now : Instant) :
    (jar.write directive now).host = jar.host := by
  unfold write
  split
  · rfl
  · split <;> rfl

theorem pagePath_write (directive : String) (now : Instant) :
    (jar.write directive now).pagePath = jar.pagePath := by
  unfold write
  split
  · rfl
  · split <;> rfl

/-! ### The operations -/

theorem Sound.withPagePath (h : jar.Sound) (path : String) : (jar.withPagePath path).Sound := by
  unfold CookieJar.withPagePath
  split
  · rename_i hp; exact ⟨hp, h.apart, h.domains⟩
  · exact h

theorem Sound.discard (h : jar.Sound) (c : Cookie) : (jar.discard c).Sound :=
  ⟨h.path, h.apart.filter _, fun c' hc' => h.domains c' (List.mem_filter.1 hc').1⟩

theorem Sound.put (h : jar.Sound) {c : Cookie} (hc : c.IsOf jar.host) : (jar.put c).Sound := by
  have hd := h.discard c
  refine ⟨hd.path, List.pairwise_append.2 ⟨hd.apart, List.pairwise_singleton .., ?_⟩, ?_⟩
  · intro a ha b hb
    rw [List.mem_singleton] at hb
    subst hb
    simpa using (List.mem_filter.1 ha).2
  · intro c' hc'
    rcases List.mem_append.1 hc' with hc' | hc'
    · exact hd.domains c' hc'
    · rw [List.mem_singleton] at hc'
      exact hc' ▸ hc

variable (hhost : ∀ c ∈ jar.host.toList, isBlank c = false)
include hhost

theorem Sound.insert (h : jar.Sound) (c : Cookie) : (jar.insert c).Sound := by
  unfold CookieJar.insert
  simp only
  split
  · rename_i hall
    refine h.put fun d hd => ?_
    obtain ⟨d', -, rfl⟩ := Option.map_eq_some_iff.1 hd
    have hc : domainCovers (normalizeDomain d') jar.host = true := by
      rw [show c.domain.map normalizeDomain = some (normalizeDomain d') from hd] at hall
      exact hall
    exact ⟨normalizeDomain_idem hhost hc, hc⟩
  · exact h

theorem Sound.write (h : jar.Sound) (directive : String) (now : Instant) :
    (jar.write directive now).Sound := by
  unfold CookieJar.write
  split
  · exact h
  · rename_i w hw
    split
    · exact h.discard _
    · exact h.put (CookieWrite.isOf_ofDirective hhost hw)

omit hhost

/-! ### Putting cookies in again -/

/-- A cookie of a new key that the host may store is put last, as it is. -/
theorem insert_eq {c : Cookie} (hc : c.IsOf jar.host) (hnew : ∀ a ∈ jar.cookies, a.sameKey c = false) :
    jar.insert c = { jar with cookies := jar.cookies ++ [c] } := by
  have hdomain : c.domain.map normalizeDomain = c.domain := by
    cases hd : c.domain with
    | none => rfl
    | some d => rw [Option.map_some, (hc d hd).1]
  have hall : c.domain.all (domainCovers · jar.host) = true := by
    cases hd : c.domain with
    | none => rfl
    | some d => exact (hc d hd).2
  have hkeep : jar.cookies.filter (fun a => !a.sameKey c) = jar.cookies :=
    List.filter_eq_self.2 fun a ha => by rw [hnew a ha]; rfl
  unfold CookieJar.insert
  simp only [hdomain]
  rw [if_pos hall, CookieJar.put, CookieJar.discard, hkeep]

/-- **Putting the cookies of a jar in again** gives the jar. -/
theorem Sound.foldl_insert (h : jar.Sound) :
    jar.cookies.foldl CookieJar.insert { jar with cookies := [] } = jar := by
  -- After the first cookies, the jar holds just those.
  have hfold : ∀ cs cs', (cs ++ cs').Pairwise (fun a b : Cookie => a.sameKey b = false) →
      (∀ c ∈ cs', c.IsOf jar.host) → cs'.foldl CookieJar.insert { jar with cookies := cs } =
        { jar with cookies := cs ++ cs' } := by
    intro cs cs'
    induction cs' generalizing cs with
    | nil => intro _ _; rw [List.append_nil]; rfl
    | cons c cs' ih =>
      intro hp hd
      have hnew := (List.pairwise_append.1 hp).2.2
      have hins : CookieJar.insert { jar with cookies := cs } c = { jar with cookies := cs ++ [c] } :=
        insert_eq (hd c List.mem_cons_self) fun a ha => hnew a ha c List.mem_cons_self
      rw [List.foldl_cons, hins]
      have hcs : cs ++ c :: cs' = cs ++ [c] ++ cs' := by simp
      rw [hcs] at hp ⊢
      exact ih _ hp fun c' hc' => hd c' (List.mem_cons_of_mem _ hc')
  exact hfold [] jar.cookies h.apart h.domains

end CookieJar

end PageSweep
