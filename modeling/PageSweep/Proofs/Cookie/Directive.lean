import PageSweep.Proofs.Cookie.Writing

/-!
# What a directive says

A directive gives a cookie its name and its value, and says more of it by attributes: a path, a domain, an age or a
date that limits its lifetime. An attribute takes the place of those of its kind before it, and an age and a date are
of one kind here. So of the paths, of the domains and of the limits of both sorts together the last one counts.

* `CookieWrite.applyAll_eq`: the attributes of a directive, each kind on its own.
* `CookieDirective.ofDirective?_eq`, `CookieJar.write_eq`: a write, from what its directive says.
* `CookieDirective.ofText?_append`: what stands behind a semicolon are attributes.
* `CookieJar.write_others`: a directive concerns the cookies of one name.
* `deleted_by_last_limit`: which directives delete.
-/

namespace PageSweep

open Number Text

/-- What an attribute says of a cookie. -/
inductive CookieAttribute where
  /-- The seconds that are left to it. -/
  | age (seconds : Int)
  | date (moment : Instant)
  | path (path : String)
  /-- A domain as it is stored. -/
  | domain (domain : String)
  /-- What is no attribute, or one whose value cannot be read. -/
  | nothing
deriving DecidableEq, Repr

namespace CookieAttribute

def ofPiece (piece : List Char) : CookieAttribute :=
  let (key, value) := CookieWrite.keyAndValue piece
  match String.ofList key with
  | "max-age" => ((readInteger? value).map age).getD nothing
  | "expires" => ((CookieDate.read? (String.ofList value)).map date).getD nothing
  | "path" => if value.head? = some '/' then path (String.ofList value) else nothing
  | "domain" => if value.isEmpty then nothing else domain (normalizeDomain (String.ofList value))
  | _ => nothing

/-- Whether a limit of the lifetime is over at a moment; none for what is no limit. -/
def isOver? (now : Instant) : CookieAttribute → Option Bool
  | age seconds => some (seconds ≤ 0)
  | date moment => some (moment.notAfter now)
  | _ => none

def path? : CookieAttribute → Option String
  | path p => some p
  | _ => none

def domain? : CookieAttribute → Option String
  | domain d => some d
  | _ => none

/-- What the last attribute of a kind says. -/
def last? {α : Type} (kind : CookieAttribute → Option α) (as : List CookieAttribute) : Option α :=
  (as.filterMap kind).getLast?

theorem last?_cons {α : Type} (kind : CookieAttribute → Option α) (a : CookieAttribute)
    (as : List CookieAttribute) : last? kind (a :: as) = (last? kind as).or (kind a) := by
  unfold last?
  cases hk : kind a with
  | none => rw [List.filterMap_cons_none hk, Option.or_none]
  | some b =>
    rw [List.filterMap_cons_some hk, List.getLast?_cons]
    cases (as.filterMap kind).getLast? <;> rfl

end CookieAttribute

open CookieAttribute

/-! ### Attributes -/

namespace CookieWrite

variable {host : String} {now : Instant}

/-- The keys of attributes. -/
def attributeKeys : List String := ["max-age", "expires", "path", "domain"]

theorem ofPiece_of_other {piece : List Char} (h : String.ofList (keyAndValue piece).1 ∉ attributeKeys) :
    ofPiece piece = nothing := by
  unfold ofPiece
  simp only
  split
  case h_5 => rfl
  all_goals
    rename_i hkey
    exact absurd (hkey ▸ by decide) h

theorem apply_of_other {piece : List Char} (h : String.ofList (keyAndValue piece).1 ∉ attributeKeys)
    (w : CookieWrite) : w.apply host now piece = some w := by
  unfold apply
  simp only
  split
  case h_5 => rfl
  all_goals
    rename_i hkey
    exact absurd (hkey ▸ by decide) h

/-- **What an attribute does to a write.** -/
theorem apply_eq (piece : List Char) (w : CookieWrite) : w.apply host now piece =
    if (ofPiece piece).domain?.all (domainCovers · host) then
      some ⟨⟨w.cookie.name, w.cookie.value, (ofPiece piece).domain?.or w.cookie.domain,
        (ofPiece piece).path?.getD w.cookie.path⟩, ((ofPiece piece).isOver? now).getD w.expired⟩
    else none := by
  by_cases hkey : String.ofList (keyAndValue piece).1 ∈ attributeKeys
  · unfold apply ofPiece
    generalize keyAndValue piece = kv at hkey ⊢
    obtain ⟨key, value⟩ := kv
    simp only at hkey ⊢
    generalize String.ofList key = k at hkey ⊢
    simp only [attributeKeys, List.mem_cons, List.not_mem_nil, or_false] at hkey
    rcases hkey with rfl | rfl | rfl | rfl
    · cases readInteger? value <;> rfl
    · cases CookieDate.read? (String.ofList value) <;> rfl
    · by_cases h : value.head? = some '/'
      · simp only [if_pos h]
        rfl
      · simp only [if_neg h]
        rfl
    · by_cases h : value.isEmpty = true
      · simp only [if_pos h]
        rfl
      · simp only [if_neg h]
        rfl
  · rw [apply_of_other hkey, ofPiece_of_other hkey]
    rfl

/-- **The attributes of a directive, each kind on its own**: the last one of a kind counts, and one domain that is not
the host's turns the directive down. -/
theorem applyAll_eq (pieces : List (List Char)) (w : CookieWrite) : applyAll host now pieces w =
    if ((pieces.map ofPiece).filterMap domain?).all (domainCovers · host) then
      some ⟨⟨w.cookie.name, w.cookie.value, (last? domain? (pieces.map ofPiece)).or w.cookie.domain,
        (last? path? (pieces.map ofPiece)).getD w.cookie.path⟩,
        (last? (isOver? now) (pieces.map ofPiece)).getD w.expired⟩
    else none := by
  induction pieces generalizing w with
  | nil => rfl
  | cons piece pieces ih =>
    rw [applyAll, apply_eq, List.map_cons, last?_cons, last?_cons, last?_cons]
    cases hdomain : (ofPiece piece).domain? with
    | none =>
      rw [List.filterMap_cons_none hdomain]
      simp [ih, Option.getD_or]
    | some d =>
      rw [List.filterMap_cons_some hdomain, Option.all_some, List.all_cons]
      cases hcovers : domainCovers d host with
      | false => rfl
      | true => simp [ih]

end CookieWrite

/-! ### Directives -/

/-- What a directive says. -/
structure CookieDirective where
  name : String
  value : String
  attributes : List CookieAttribute
deriving DecidableEq, Repr

namespace CookieDirective

/-- What a text says as a directive; nothing without a name and an equals sign after it. -/
def ofText? (text : List Char) : Option CookieDirective :=
  match splitAt ';' text with
  | [] => none
  | first :: pieces =>
    match cutAt '=' first with
    | none => none
    | some (name, value) =>
      if (trimList name).isEmpty then none
      else some ⟨String.ofList (trimList name), String.ofList (trimList value), pieces.map ofPiece⟩

/-- The name of the cookies that a directive concerns. -/
def nameIn? (text : String) : Option String := (ofText? text.toList).map (·.name)

/-- The cookie of a directive, for the last domain and the last path that it gives. -/
def cookie (d : CookieDirective) : Cookie :=
  ⟨d.name, d.value, last? domain? d.attributes, (last? path? d.attributes).getD rootPath⟩

/-- Whether all domains of a directive are the host's. -/
def isTakenAt (host : String) (d : CookieDirective) : Bool :=
  (d.attributes.filterMap domain?).all (domainCovers · host)

/-- Whether a directive has expired at a moment, by its last limit. -/
def isOver (now : Instant) (d : CookieDirective) : Bool := (last? (isOver? now) d.attributes).getD false

/-- **The write of a directive, from what it says.** -/
theorem ofDirective?_eq (host text : String) (now : Instant) : CookieWrite.ofDirective? host text now =
    (ofText? text.toList).bind fun d => if d.isTakenAt host then some ⟨d.cookie, d.isOver now⟩ else none := by
  unfold CookieWrite.ofDirective? ofText?
  generalize splitAt ';' text.toList = ps
  cases ps with
  | nil => rfl
  | cons first pieces =>
    generalize hcut : cutAt '=' first = cut
    cases cut with
    | none => simp only [hcut, Option.bind_none]
    | some cut =>
      simp only [hcut]
      split
      · rfl
      · rw [CookieWrite.applyAll_eq]
        simp [isTakenAt, cookie, isOver]

/-- **What stands behind a semicolon are attributes**, whatever is in front of it. -/
theorem ofText?_append (front rest : List Char) : ofText? (front ++ ';' :: rest) =
    (ofText? front).map fun d => { d with attributes := d.attributes ++ (splitAt ';' rest).map ofPiece } := by
  simp only [ofText?, Text.splitAt]
  rw [splitAny_append (by rfl)]
  cases hfront : splitAny (· == ';') front with
  | nil => exact absurd hfront (splitAny_ne_nil _ _)
  | cons first pieces =>
    rw [List.cons_append]
    generalize hcut : cutAt '=' first = cut
    cases cut with
    | none => simp only [hcut, Option.map_none]
    | some cut =>
      simp only [hcut]
      split
      · rfl
      · simp

end CookieDirective

namespace CookieJar

variable {jar : CookieJar}

/-- **A write, from what its directive says.** -/
theorem write_eq (text : String) (now : Instant) : jar.write text now =
    match CookieDirective.ofText? text.toList with
    | none => jar
    | some d => if d.isTakenAt jar.host then jar.settle ⟨d.cookie, d.isOver now⟩ else jar := by
  unfold write
  rw [CookieDirective.ofDirective?_eq]
  cases CookieDirective.ofText? text.toList with
  | none => rfl
  | some d =>
    simp only [Option.bind_some]
    cases d.isTakenAt jar.host <;> rfl

/-- What a write leaves of the cookies that it does not concern. -/
theorem filter_settle {p : Cookie → Bool} {w : CookieWrite} (hp : ∀ c, p c = true → c.key ≠ w.cookie.key) :
    (jar.settle w).cookies.filter p = jar.cookies.filter p := by
  have hkeep : ∀ c, (p c && !c.sameKey w.cookie) = p c := by
    intro c
    cases hc : p c with
    | false => rfl
    | true => simp [Cookie.sameKey_eq_false_iff.2 (hp c hc)]
  have hnew : (left w).toList.filter p = [] := by
    refine List.filter_eq_nil_iff.2 fun c hc hpc => ?_
    unfold left at hc
    split at hc
    · simp at hc
    · rw [Option.toList_some, List.mem_singleton] at hc
      exact hp c hpc (by rw [hc])
  rw [cookies_settle, List.filter_append, hnew, List.append_nil, List.filter_filter]
  simp only [hkeep]

/-- **A directive concerns the cookies of one name**, the one that stands in front of its first equals sign: all
others stay as they are, in their order. -/
theorem write_others (text : String) (now : Instant) :
    (jar.write text now).cookies.filter (fun c => some c.name != CookieDirective.nameIn? text) =
      jar.cookies.filter fun c => some c.name != CookieDirective.nameIn? text := by
  rw [write_eq, CookieDirective.nameIn?]
  cases hd : CookieDirective.ofText? text.toList with
  | none => rfl
  | some d =>
    simp only
    split
    · refine filter_settle fun c hc hkey => ?_
      have hsame : c.name = d.name := congrArg Prod.fst hkey
      simp [hsame] at hc
    · rfl

end CookieJar

/-! ### Deleting -/

/-- **A write clears its key** just if it has expired; otherwise the cookie itself is there. -/
theorem CookieJar.settle_clears_iff {jar : CookieJar} {w : CookieWrite} :
    (∀ c ∈ (jar.settle w).cookies, c.key ≠ w.cookie.key) ↔ w.expired = true := by
  rw [cookies_settle, List.forall_mem_append]
  have hkept : ∀ c ∈ jar.cookies.filter fun c => !c.sameKey w.cookie, c.key ≠ w.cookie.key := by
    intro c hc
    have hother : c.sameKey w.cookie = false := by simpa using (List.mem_filter.1 hc).2
    exact Cookie.sameKey_eq_false_iff.1 hother
  unfold left
  cases w.expired with
  | false => simp
  | true => simpa using hkept

theorem CookieDirective.isOver_iff {d : CookieDirective} {now : Instant} :
    d.isOver now = true ↔ last? (isOver? now) d.attributes = some true := by
  unfold isOver
  cases last? (isOver? now) d.attributes <;> simp

/-- **Of the limits of a directive the last one counts.** A directive with a name, all of whose domains are the
host's, leaves no cookie of its key just if the last limit of its lifetime, age or date, is over; all cookies of other
keys stay as they are, in their order. -/
theorem deleted_by_last_limit {jar : CookieJar} {text : String} {d : CookieDirective}
    (hd : CookieDirective.ofText? text.toList = some d)
    (hdomains : ∀ a ∈ d.attributes, ∀ x ∈ a.domain?, domainCovers x jar.host = true) (now : Instant) :
    let after := jar.write text now
    ((∀ c ∈ after.cookies, c.key ≠ d.cookie.key) ↔ last? (isOver? now) d.attributes = some true) ∧
      after.cookies.filter (fun c => c.key != d.cookie.key) =
        jar.cookies.filter fun c => c.key != d.cookie.key := by
  intro after
  have htaken : d.isTakenAt jar.host = true := by
    refine List.all_eq_true.2 fun x hx => ?_
    obtain ⟨a, ha, hax⟩ := List.mem_filterMap.1 hx
    exact hdomains a ha x hax
  have hafter : after = jar.settle ⟨d.cookie, d.isOver now⟩ := by
    rw [show after = jar.write text now from rfl, CookieJar.write_eq, hd]
    exact if_pos htaken
  rw [hafter, ← CookieDirective.isOver_iff]
  exact ⟨CookieJar.settle_clears_iff, CookieJar.filter_settle fun c hc => by simpa using hc⟩

/-- The shop writes its cookie with two limits, of which the age that is over comes last. -/
theorem deleted_by_last_limit_oldAge :
    let jar : CookieJar := ⟨"www.example.com", "/", [⟨"seen", "1", none, "/"⟩, ⟨"seen", "2", some "example.com", "/"⟩]⟩
    let text := "seen=; domain=.Example.com; expires=Fri, 01 Jan 2100 00:00:00 GMT; Max-Age=0"
    let d : CookieDirective :=
      ⟨"seen", "", [.domain "example.com", .date ⟨4102444800, 0⟩, .age 0]⟩
    CookieDirective.ofText? text.toList = some d ∧
      (∀ a ∈ d.attributes, ∀ x ∈ a.domain?, domainCovers x jar.host = true) ∧
      ∀ c ∈ (jar.write text .epoch).cookies, c.key ≠ ("seen", some "example.com", "/") := by
  intro jar text d
  have hd : CookieDirective.ofText? text.toList = some d := by decide
  have hdomains : ∀ a ∈ d.attributes, ∀ x ∈ a.domain?, domainCovers x jar.host = true := by decide
  exact ⟨hd, hdomains, (deleted_by_last_limit hd hdomains .epoch).1.2 (by decide)⟩

/-- **A date that is to come outlives an age that is over**, if it comes after it: the cookie is stored, although the
directive has an age that is not positive. -/
theorem date_outlives_age :
    let jar : CookieJar := ⟨"www.example.com", "/", [⟨"a", "1", none, "/"⟩]⟩
    let text := "a=2; Max-Age=0; expires=Fri, 01 Jan 2100 00:00:00 GMT"
    CookieDirective.ofText? text.toList = some ⟨"a", "2", [.age 0, .date ⟨4102444800, 0⟩]⟩ ∧
      (jar.write text .epoch).cookies = [⟨"a", "2", none, "/"⟩] := by
  decide

end PageSweep
