import Mathlib.Data.List.Forall2
import PageSweep.Proofs.Cookie.Directive
import PageSweep.Proofs.Cookie.Header
import PageSweep.Proofs.Cookie.HostDomain
import PageSweep.Proofs.Pass.Deletion

/-!
# What the directives of a clearing say

To clear a cookie a pass writes directives for the domains that it may have been set for: none, the whole host, its
last two labels. It pastes the target into them as it is, so that what they name is what stands in front of the first
equals sign or semicolon.

* `CookieDirective.ofText?_target`, `nameIn?_of_trimmed`: the name that a target has in its directives.
* `CookieDirective.ofDirective?_form`: the write of a directive.
* `Scene.domainTexts_taken`, `Scene.mem_domains_iff`: the domains of the directives, all of them the host's.
-/

namespace PageSweep

open Text

/-! ### The names of the directives -/

namespace CookieDirective

/-- **A text without semicolons**, pasted in front of an equals sign, names what it would name in a header. -/
theorem ofText?_target {target : String} (h : ';' ∉ target.toList) : ∃ value,
    ofText? (target ++ "=").toList = (nameInPair? target.toList).map fun name => ⟨name, value, []⟩ := by
  -- The first equals sign is the one behind the target, if there is none in it.
  obtain ⟨front, back, htext, hfront, htake⟩ : ∃ front back, target.toList ++ ['='] = front ++ '=' :: back ∧
      '=' ∉ front ∧ target.toList.takeWhile (· ≠ '=') = front := by
    by_cases he : '=' ∈ target.toList
    · obtain ⟨front, back, hsplit, hfront⟩ := List.eq_append_cons_of_mem he
      refine ⟨front, back ++ ['='], by rw [hsplit, List.append_assoc, List.cons_append], hfront, ?_⟩
      rw [hsplit, takeWhile_ne_append hfront]
    · exact ⟨target.toList, [], rfl, he, takeWhile_ne_eq_self he⟩
  have hfree : ';' ∉ target.toList ++ ['='] := by simpa using h
  refine ⟨String.ofList (trimList back), ?_⟩
  rw [String.toList_append, show "=".toList = ['='] from rfl, ofText?, splitAt_eq_self hfree, nameInPair?, htake]
  simp only [htext, cutAt_append hfront]
  split <;> rfl

/-- Behind a semicolon of a target nothing is named any more. -/
theorem ofText?_semicolon {target : String} (h : ';' ∈ target.toList) (he : '=' ∉ target.toList) :
    ofText? (target ++ "=").toList = none := by
  obtain ⟨front, back, hsplit, hfront⟩ := List.eq_append_cons_of_mem h
  have hcut : cutAt '=' front = none := cutAt_eq_none.2 fun hm => he (hsplit ▸ List.mem_append_left _ hm)
  rw [String.toList_append, hsplit, List.append_assoc, List.cons_append, ofText?_append, ofText?,
    splitAt_eq_self hfront]
  simp only [hcut, Option.map_none]

theorem nameIn?_target {target : String} (h : ';' ∉ target.toList) :
    nameIn? (target ++ "=") = nameInPair? target.toList := by
  obtain ⟨value, hvalue⟩ := ofText?_target h
  rw [nameIn?, hvalue, Option.map_map]
  exact Option.map_id'

theorem nameInPair?_of_trimmed {target : String} (h : trim target = target) (he : '=' ∉ target.toList) :
    nameInPair? target.toList = if target = "" then none else some target := by
  unfold nameInPair?
  simp only [takeWhile_ne_eq_self he, trimList_of_trim h, String.ofList_toList]
  simp

/-- **A trimmed target without an equals sign** names itself or nothing. -/
theorem nameIn?_of_trimmed {target : String} (h : trim target = target) (he : '=' ∉ target.toList) :
    ∀ name ∈ nameIn? (target ++ "="), name = target := by
  intro name hname
  by_cases hs : ';' ∈ target.toList
  · rw [nameIn?, ofText?_semicolon hs he] at hname
    cases hname
  · rw [nameIn?_target hs, nameInPair?_of_trimmed h he] at hname
    split at hname
    · cases hname
    · exact (Option.some.inj hname).symm

/-- A name that can be read back is the name of its directives. -/
theorem ofText?_of_isCookieName {name : String} (h : IsCookieName name) :
    ∃ value, ofText? (name ++ "=").toList = some ⟨name, value, []⟩ := by
  obtain ⟨value, hvalue⟩ := ofText?_target h.semicolon
  rw [nameInPair?_of_trimmed h.trimmed h.equals, if_neg h.ne_empty] at hvalue
  exact ⟨value, hvalue⟩

end CookieDirective

/-- A target is pasted in front of a semicolon, and what stands behind that names nothing. -/
theorem Scene.nameIn?_of_mem_deletions {host target text : String} (h : text ∈ deletions host target) :
    CookieDirective.nameIn? text = CookieDirective.nameIn? (target ++ "=") := by
  obtain ⟨rest, hrest⟩ : ∃ rest, text.toList = (target ++ "=").toList ++ ';' :: rest := by
    simp only [deletions, List.mem_append, List.mem_cons, List.not_mem_nil, or_false, List.mem_ite_nil_left] at h
    rcases h with (rfl | rfl | rfl | rfl | rfl) | ⟨-, rfl⟩ <;>
      exact ⟨_, by
        simp only [String.toList_append, List.append_assoc]
        rfl⟩
  rw [CookieDirective.nameIn?, hrest, CookieDirective.ofText?_append, Option.map_map]
  rfl

/-! ### What the directives say -/

namespace CookieAttribute

theorem ofPiece_maxAge : ofPiece " Max-Age=0".toList = .age 0 := by decide

theorem ofPiece_longAgo : ofPiece (" expires=".toList ++ Scene.longAgo.toList) = .date .epoch :=
  ofPiece_write (by decide)

theorem ofPiece_path : ofPiece " path=/".toList = .path rootPath := by decide

/-- The domain that is stored for a text; none for the empty one. -/
def storedDomain? (d : String) : Option String := if d = "" then none else some (normalizeDomain d)

theorem ofPiece_domain {d : String} (h : ∀ c ∈ d.toList, isBlank c = false) :
    ofPiece (" domain=".toList ++ d.toList) = ((storedDomain? d).map domain).getD nothing := by
  unfold ofPiece
  rw [CookieWrite.keyAndValue_domain, trimList_eq_self h]
  simp only [String.ofList_toList]
  unfold storedDomain?
  by_cases hd : d = ""
  · subst hd
    rfl
  · rw [if_neg hd, if_neg (by simpa using hd)]
    rfl

/-- The limit of a directive that deletes is over, whichever of the two it is. -/
theorem isOver?_of_expires {now : Instant} (hnow : 0 ≤ now.seconds) {piece : List Char}
    (h : piece = " Max-Age=0".toList ∨ piece = " expires=".toList ++ Scene.longAgo.toList) :
    (ofPiece piece).isOver? now = some true ∧ (ofPiece piece).domain? = none ∧ (ofPiece piece).path? = none := by
  rcases h with rfl | rfl
  · rw [ofPiece_maxAge]
    exact ⟨rfl, rfl, rfl⟩
  · rw [ofPiece_longAgo]
    exact ⟨congrArg some (CookieWrite.epoch_notAfter hnow), rfl, rfl⟩

end CookieAttribute

open CookieAttribute

namespace CookieDirective

/-- **What a directive of a pass says**, whatever stands in front of its first semicolon of its own. -/
theorem ofText?_form {front piece : List Char} {last : Option (List Char)} {text : String}
    (hf : IsDeletion.Form front piece last text) : ofText? text.toList = (ofText? front).map fun d =>
      { d with attributes := d.attributes ++ ofPiece piece :: .path rootPath :: last.toList.map ofPiece } := by
  rw [hf.text, ofText?_append, hf.splitAt_rest, List.map_cons, List.map_cons, ofPiece_path]

/-- What the last attribute of a directive of a pass says, which may be a domain. -/
def domainSaid (x : Option String) : List CookieAttribute :=
  x.toList.map fun y => ((storedDomain? y).map domain).getD nothing

theorem filterMap_domainSaid (x : Option String) : (domainSaid x).filterMap domain? = (x.bind storedDomain?).toList := by
  cases x with
  | none => rfl
  | some y =>
    rw [Option.bind_some, domainSaid]
    cases h : storedDomain? y <;> simp [h, domain?]

theorem filterMap_domainSaid_eq_nil {α : Type} {kind : CookieAttribute → Option α} (hnothing : kind nothing = none)
    (hkind : ∀ d, kind (domain d) = none) (x : Option String) : (domainSaid x).filterMap kind = [] := by
  cases x with
  | none => rfl
  | some y =>
    rw [domainSaid]
    cases h : storedDomain? y <;> simp [h, hnothing, hkind]

/-- The write of such a directive, if nothing but a name and a value stands in front. -/
theorem ofDirective?_form {host front text name value : String} {piece : List Char} {x : Option String} {now : Instant}
    (hf : IsDeletion.Form front.toList piece (x.map fun y => " domain=".toList ++ y.toList) text)
    (hd : ofText? front.toList = some ⟨name, value, []⟩) (hblank : ∀ y ∈ x, ∀ c ∈ y.toList, isBlank c = false)
    (hcovers : ∀ y ∈ x, domainCovers (normalizeDomain y) host = true) (hnow : 0 ≤ now.seconds) :
    CookieWrite.ofDirective? host text now =
      some ⟨⟨name, value, x.bind storedDomain?, rootPath⟩, true⟩ := by
  obtain ⟨hover, hdomain, hpath⟩ := isOver?_of_expires hnow hf.expires
  have hlast : (x.map fun y => " domain=".toList ++ y.toList).toList.map ofPiece = domainSaid x := by
    cases x with
    | none => rfl
    | some y => exact congrArg ([·]) (ofPiece_domain (hblank y rfl))
  have htaken : ∀ d ∈ (x.bind storedDomain?).toList, domainCovers d host = true := by
    intro d hmem
    obtain ⟨y, hy, hyd⟩ := Option.bind_eq_some_iff.1 (Option.mem_toList.1 hmem)
    unfold storedDomain? at hyd
    split at hyd
    · cases hyd
    · cases hyd
      exact hcovers y hy
  rw [ofDirective?_eq, ofText?_form hf, hd, Option.map_some, Option.bind_some, List.nil_append, hlast]
  simp only [isTakenAt, cookie, isOver, last?, List.filterMap_cons_none hdomain, List.filterMap_cons_none hpath,
    List.filterMap_cons_some hover]
  rw [List.filterMap_cons_none (by rfl), List.filterMap_cons_some (b := rootPath) (by rfl),
    List.filterMap_cons_none (by rfl), filterMap_domainSaid, filterMap_domainSaid_eq_nil rfl fun _ => rfl,
    filterMap_domainSaid_eq_nil rfl fun _ => rfl, if_pos (List.all_eq_true.2 htaken)]
  cases x.bind storedDomain? <;> rfl

end CookieDirective

/-! ### The domains of the directives -/

/-- What stands behind `domain=` in each of the directives that clear a cookie, if that is in it. -/
def Scene.domainTexts (host : String) : List (Option String) :=
  [some host, none, some ("." ++ host), some host, none] ++
    if Host.baseDomain host = host then [] else [some ("." ++ Host.baseDomain host)]

/-- The domains of cookies within the reach of a host that clears one: none, the whole host and its last two labels. -/
def Host.domains (host : String) : List (Option String) :=
  [none, some (normalizeDomain host), some (normalizeDomain (baseDomain host))]

section

variable {host : String}

theorem Scene.deletions_forms (hhost : ';' ∉ host.toList) (name : String) :
    List.Forall₂ (fun x text => ∃ piece, IsDeletion.Form (name ++ "=").toList piece
      (x.map fun y => " domain=".toList ++ y.toList) text) (domainTexts host) (deletions host name) := by
  have hbase : ';' ∉ (Host.baseDomain host).toList := fun hm =>
    (mem_of_mem_baseDomain hm).elim (fun he => by cases he) hhost
  have hdotted : ∀ {d : String}, ';' ∉ d.toList → ∃ piece, IsDeletion.Form (name ++ "=").toList piece
      ((some ("." ++ d)).map fun y => " domain=".toList ++ y.toList)
      (name ++ "=; Max-Age=0; path=/; domain=." ++ d) := by
    intro d hd
    rw [Option.map_some, String.toList_append, String.toList_append]
    exact ⟨_, .age_dotted name hd⟩
  rw [String.toList_append] at hdotted ⊢
  unfold deletions domainTexts
  refine List.rel_append ?_ ?_
  · exact .cons ⟨_, .age_domain name hhost⟩ (.cons ⟨_, .age name⟩ (.cons (hdotted hhost)
      (.cons ⟨_, .date_domain name hhost⟩ (.cons ⟨_, .date name⟩ .nil))))
  · split
    · exact .nil
    · exact .cons (hdotted hbase) .nil

theorem Scene.mem_domainTexts {y : String} (h : some y ∈ domainTexts host) :
    y = host ∨ y = "." ++ host ∨ y = "." ++ Host.baseDomain host := by
  rcases List.mem_append.1 h with h | h
  · simp only [List.mem_cons, Option.some.injEq, reduceCtorEq, List.not_mem_nil, or_false, false_or] at h
    rcases h with h | h | h
    · exact .inl h
    · exact .inr (.inl h)
    · exact .inl h
  · split at h
    · exact absurd h List.not_mem_nil
    · exact .inr (.inr (Option.some.inj (List.mem_singleton.1 h)))

variable (hblank : ∀ c ∈ host.toList, isBlank c = false)

include hblank

theorem Host.isBlank_baseDomain : ∀ c ∈ (baseDomain host).toList, isBlank c = false := by
  intro c hc
  rcases mem_of_mem_baseDomain hc with rfl | hc
  · rfl
  · exact hblank c hc

/-- **The host takes them all**: each is one of its domains, perhaps with a dot in front. -/
theorem Scene.domainTexts_taken {x : Option String} (hx : x ∈ domainTexts host) : ∀ y ∈ x,
    (∀ c ∈ y.toList, isBlank c = false) ∧ domainCovers (normalizeDomain y) (lower host) = true := by
  have hdotted : ∀ {tail : String}, (∀ c ∈ tail.toList, isBlank c = false) → Host.IsTail tail host →
      (∀ c ∈ ("." ++ tail).toList, isBlank c = false) ∧
        domainCovers (normalizeDomain ("." ++ tail)) (lower host) = true := by
    intro tail htail hof
    refine ⟨fun c hc => ?_, normalizeDomain_dot htail ▸ domainCovers_of_isTail htail hof⟩
    rw [String.toList_append] at hc
    rcases List.mem_append.1 hc with hc | hc
    · rw [show c = '.' from List.mem_singleton.1 hc]
      rfl
    · exact htail c hc
  intro y hy
  rw [Option.mem_def] at hy
  subst hy
  rcases mem_domainTexts hx with rfl | rfl | rfl
  · exact ⟨hblank, domainCovers_of_isTail hblank (Host.isTail_self y)⟩
  · exact hdotted hblank (Host.isTail_self host)
  · exact hdotted (Host.isBlank_baseDomain hblank) (Host.isTail_baseDomain host)

/-- **The domains that they are stored as.** -/
theorem Scene.mem_domains_iff (d : Option String) :
    (∃ x ∈ domainTexts host, x.bind storedDomain? = d) ↔ d ∈ Host.domains host := by
  have hdot : ∀ {tail : String}, (∀ c ∈ tail.toList, isBlank c = false) →
      storedDomain? ("." ++ tail) = some (normalizeDomain tail) := by
    intro tail htail
    have hne : "." ++ tail ≠ "" := fun h => by simpa using congrArg String.toList h
    rw [storedDomain?, if_neg hne, normalizeDomain_dot htail]
  have hwhole : ∃ x ∈ domainTexts host, x.bind storedDomain? = some (normalizeDomain host) :=
    ⟨some ("." ++ host), by simp [domainTexts], hdot hblank⟩
  constructor
  · rintro ⟨x, hx, rfl⟩
    cases x with
    | none => exact List.mem_cons_self
    | some y =>
      rw [Option.bind_some]
      rcases mem_domainTexts hx with rfl | rfl | rfl
      · unfold storedDomain?
        split <;> simp [Host.domains]
      · simp [hdot hblank, Host.domains]
      · simp [hdot (Host.isBlank_baseDomain hblank), Host.domains]
  · intro hd
    rcases List.mem_cons.1 hd with rfl | hd
    · exact ⟨none, by simp [domainTexts], rfl⟩
    rcases List.mem_cons.1 hd with rfl | hd
    · exact hwhole
    rw [List.mem_singleton.1 hd]
    by_cases hbase : Host.baseDomain host = host
    · rw [hbase]
      exact hwhole
    · exact ⟨some ("." ++ Host.baseDomain host), by simp [domainTexts, hbase],
        hdot (Host.isBlank_baseDomain hblank)⟩

end

end PageSweep
