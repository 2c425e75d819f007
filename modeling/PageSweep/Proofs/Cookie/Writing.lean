import PageSweep.Proofs.Cookie.Jar

/-!
# Writing to a jar

Whatever is put into a jar, seeds and directives of any text at any moments, it holds one cookie of a key at
most, and the domains in it are stored ones that cover its host. One write concerns one key: the cookie of
the key goes, a new one may come last, and all others stay as they are. So writes of different keys can
change places.

* `Sound.rewrites`: what one write does to a jar.
* `CookieJar.settle_comm`: writes of different keys.
* `jar_keyed_and_covered`: the jars that can be reached.
-/

namespace PageSweep

open Text

/-! ### Keys -/

/-- What tells the cookies of a jar apart. -/
def Cookie.key (c : Cookie) : String × Option String × String := (c.name, c.domain, c.path)

theorem Cookie.sameKey_iff {a b : Cookie} : a.sameKey b = true ↔ a.key = b.key := by
  simp [sameKey, key, and_assoc]

theorem Cookie.sameKey_eq_false_iff {a b : Cookie} : a.sameKey b = false ↔ a.key ≠ b.key := by
  rw [← Bool.not_eq_true, sameKey_iff]

/-- **A domain that is stored as it is** has no dot in front and is in lower case. -/
theorem lower_of_normalizeDomain {d : String} (h : normalizeDomain d = d) :
    lower d = d ∧ d.toList.head? ≠ some '.' := by
  have hlist : lowerList ((trimList d.toList).dropWhile (· == '.')) = d.toList := by
    rw [normalizeDomain] at h
    rw [← String.toList_ofList (l := lowerList _), h]
  constructor
  · rw [lower, ← hlist, lowerList_idem, hlist, String.ofList_toList]
  · intro hdot
    -- In lower case a letter is no dot, so a dot in front would be one that was dropped.
    rw [← hlist, lowerList, List.head?_map, Option.map_eq_some_iff] at hdot
    obtain ⟨c, hc, hlow⟩ := hdot
    have hhead := List.head?_dropWhile_not (· == '.') (trimList d.toList)
    rw [hc] at hhead
    simp [toLower_eq_dot hlow] at hhead

/-! ### One write -/

/-- What can be written to a jar. -/
inductive JarWrite where
  | seed (cookie : Cookie)
  | directive (text : String) (now : Instant)
deriving Repr

namespace JarWrite

def carryOut : JarWrite → CookieJar → CookieJar
  | seed c, jar => jar.insert c
  | directive text now, jar => jar.write text now

/-- What a jar of a host takes of a write, if it is not turned down. -/
def taken? (host : String) : JarWrite → Option CookieWrite
  | seed c =>
    let c := { c with domain := c.domain.map normalizeDomain }
    if c.domain.all (domainCovers · host) then some ⟨c, false⟩ else none
  | directive text now => CookieWrite.ofDirective? host text now

end JarWrite

namespace CookieJar

variable {jar jar' : CookieJar}

/-- The jar after a write that it takes. -/
def settle (jar : CookieJar) (w : CookieWrite) : CookieJar :=
  if w.expired then jar.discard w.cookie else jar.put w.cookie

/-- What a write leaves under its key. -/
def left (w : CookieWrite) : Option Cookie := if w.expired then none else some w.cookie

theorem cookies_settle (jar : CookieJar) (w : CookieWrite) :
    (jar.settle w).cookies = (jar.cookies.filter fun c => !c.sameKey w.cookie) ++ (left w).toList := by
  unfold settle left
  split
  · simp [discard]
  · simp [put, discard]

theorem host_settle (w : CookieWrite) : (jar.settle w).host = jar.host := by
  unfold settle
  split <;> rfl

theorem pagePath_settle (w : CookieWrite) : (jar.settle w).pagePath = jar.pagePath := by
  unfold settle
  split <;> rfl

/-- A write that is turned down changes nothing. -/
theorem carryOut_of_none {x : JarWrite} (h : x.taken? jar.host = none) : x.carryOut jar = jar := by
  cases x with
  | seed c =>
    rw [JarWrite.taken?] at h
    show jar.insert c = jar
    unfold insert
    split at h
    · cases h
    · rename_i hc
      exact if_neg hc
  | directive text now =>
    have hnone : CookieWrite.ofDirective? jar.host text now = none := h
    show jar.write text now = jar
    rw [write, hnone]

theorem carryOut_of_some {x : JarWrite} {w : CookieWrite} (h : x.taken? jar.host = some w) :
    x.carryOut jar = jar.settle w := by
  cases x with
  | seed c =>
    rw [JarWrite.taken?] at h
    show jar.insert c = jar.settle w
    unfold insert
    split at h
    · rename_i hc
      cases h
      exact if_pos hc
    · cases h
  | directive text now =>
    have hsome : CookieWrite.ofDirective? jar.host text now = some w := h
    show jar.write text now = jar.settle w
    rw [write, hsome]
    rfl

theorem host_carryOut (x : JarWrite) : (x.carryOut jar).host = jar.host := by
  cases x with
  | seed c => exact host_insert c
  | directive text now => exact host_write text now

/-- **A jar after a write**: of the key of the write, the one cookie that was there is gone, and what the write
leaves stands last; all other cookies are as they were, in their order. -/
structure Rewrites (w : CookieWrite) (jar jar' : CookieJar) : Prop where
  host : jar'.host = jar.host
  pagePath : jar'.pagePath = jar.pagePath
  cookies : ∃ front back : List Cookie, ∃ old : Option Cookie,
    jar.cookies = front ++ old.toList ++ back ∧ jar'.cookies = front ++ back ++ (left w).toList ∧
      (∀ c ∈ old, c.key = w.cookie.key) ∧ ∀ c ∈ front ++ back, c.key ≠ w.cookie.key

/-- In a jar there is at most one cookie of a key, and the others stand before it or after it. -/
theorem Sound.split (h : jar.Sound) (key : Cookie) : ∃ front back : List Cookie, ∃ old : Option Cookie,
    jar.cookies = front ++ old.toList ++ back ∧ (∀ c ∈ old, c.key = key.key) ∧
      ∀ c ∈ front ++ back, c.key ≠ key.key := by
  by_cases hkey : ∃ c ∈ jar.cookies, c.key = key.key
  · obtain ⟨c, hc, hck⟩ := hkey
    obtain ⟨front, back, hsplit⟩ := List.append_of_mem hc
    have hapart := h.apart
    rw [hsplit, List.pairwise_append] at hapart
    obtain ⟨-, hback, hfront⟩ := hapart
    refine ⟨front, back, some c, by simp [hsplit], by simpa using hck, fun a ha => ?_⟩
    rw [← hck]
    rcases List.mem_append.1 ha with ha | ha
    · exact Cookie.sameKey_eq_false_iff.1 (hfront a ha c List.mem_cons_self)
    · exact (Cookie.sameKey_eq_false_iff.1 ((List.pairwise_cons.1 hback).1 a ha)).symm
  · push Not at hkey
    exact ⟨jar.cookies, [], none, by simp, by simp, by simpa using hkey⟩

/-- **What one write does to a jar.** -/
theorem Sound.rewrites (h : jar.Sound) (w : CookieWrite) : Rewrites w jar (jar.settle w) := by
  refine ⟨host_settle w, pagePath_settle w, ?_⟩
  obtain ⟨front, back, old, hsplit, hold, hothers⟩ := h.split w.cookie
  refine ⟨front, back, old, hsplit, ?_, hold, hothers⟩
  have hkeep : (front ++ back).filter (fun c => !c.sameKey w.cookie) = front ++ back :=
    List.filter_eq_self.2 fun c hc => by simp [Cookie.sameKey_eq_false_iff.2 (hothers c hc)]
  have hdrop : old.toList.filter (fun c => !c.sameKey w.cookie) = [] := by
    refine List.filter_eq_nil_iff.2 fun c hc => ?_
    simp [Cookie.sameKey_iff.2 (hold c (Option.mem_toList.1 hc))]
  rw [List.filter_append] at hkeep
  rw [cookies_settle, hsplit, List.filter_append, List.filter_append, hdrop, List.append_nil, hkeep]

/-- Jars of one host and path that hold the same cookies, in whatever order. -/
structure Reordered (jar jar' : CookieJar) : Prop where
  host : jar.host = jar'.host
  pagePath : jar.pagePath = jar'.pagePath
  cookies : jar.cookies.Perm jar'.cookies

/-- **Writes of different keys can change places**, up to the order of the jar. -/
theorem settle_comm {v w : CookieWrite} (hvw : v.cookie.key ≠ w.cookie.key) :
    Reordered ((jar.settle v).settle w) ((jar.settle w).settle v) := by
  refine ⟨by simp only [host_settle], by simp only [pagePath_settle], ?_⟩
  have hleft : ∀ v w : CookieWrite, v.cookie.key ≠ w.cookie.key →
      (left v).toList.filter (fun c => !c.sameKey w.cookie) = (left v).toList := by
    intro v w hvw
    refine List.filter_eq_self.2 fun c hc => ?_
    unfold left at hc
    split at hc
    · simp at hc
    · rw [Option.toList_some, List.mem_singleton] at hc
      simp [hc, Cookie.sameKey_eq_false_iff.2 hvw]
  rw [cookies_settle, cookies_settle, cookies_settle, cookies_settle, List.filter_append,
    List.filter_append, hleft v w hvw, hleft w v hvw.symm, List.filter_filter, List.filter_filter,
    List.append_assoc, List.append_assoc]
  have hsame : (jar.cookies.filter fun c => !c.sameKey v.cookie && !c.sameKey w.cookie) =
      jar.cookies.filter fun c => !c.sameKey w.cookie && !c.sameKey v.cookie :=
    List.filter_congr fun c _ => Bool.and_comm _ _
  rw [hsame]
  exact List.perm_append_comm.append_left _

end CookieJar

/-! ### The jars that can be reached -/

/-- What can be done to a jar. -/
inductive JarStep where
  | visit (path : String)
  | write (x : JarWrite)
deriving Repr

namespace CookieJar

variable {jar : CookieJar}

def step (jar : CookieJar) : JarStep → CookieJar
  | .visit path => jar.withPagePath path
  | .write x => x.carryOut jar

def steps (jar : CookieJar) (ts : List JarStep) : CookieJar := ts.foldl step jar

theorem host_step (t : JarStep) : (jar.step t).host = jar.host := by
  cases t with
  | visit path => exact host_withPagePath path
  | write x => exact host_carryOut x

theorem Sound.carryOut (h : jar.Sound) (hhost : ∀ c ∈ jar.host.toList, isBlank c = false)
    (x : JarWrite) : (x.carryOut jar).Sound := by
  cases x with
  | seed c => exact h.insert hhost c
  | directive text now => exact h.write hhost text now

theorem Sound.steps (h : jar.Sound) (hhost : ∀ c ∈ jar.host.toList, isBlank c = false)
    (ts : List JarStep) : (jar.steps ts).Sound ∧ (jar.steps ts).host = jar.host := by
  induction ts generalizing jar with
  | nil => exact ⟨h, rfl⟩
  | cons t ts ih =>
    have hstep : (jar.step t).Sound := by
      cases t with
      | visit path => exact h.withPagePath path
      | write x => exact h.carryOut hhost x
    obtain ⟨h1, h2⟩ := ih hstep (by rw [host_step]; exact hhost)
    exact ⟨h1, h2.trans (host_step t)⟩

end CookieJar

open CookieJar in
/-- **Jars are keyed, and covered by their host.** In a jar that was reached from the empty one of a host
without blanks, no two cookies share name, domain and path; every stored domain is in lower case, without a
dot in front, stored as it is, and covers the host; and the page path is absolute. One more write either is
turned down and changes nothing, or rewrites the cookie of its key and leaves all others as they are, in
their order; and two writes of different keys that are taken leave the same jar in either order, up to the
order of its cookies. -/
theorem jar_keyed_and_covered {host : String} (hhost : ∀ c ∈ host.toList, isBlank c = false)
    (ts : List JarStep) :
    let jar := (CookieJar.new host).steps ts
    jar.host = lower host ∧ (jar.cookies.map Cookie.key).Nodup ∧
    (∀ c ∈ jar.cookies, ∀ d ∈ c.domain, lower d = d ∧ d.toList.head? ≠ some '.' ∧
      normalizeDomain d = d ∧ domainCovers d jar.host = true) ∧
    startsWith "/" jar.pagePath = true ∧
    (∀ x : JarWrite, (x.taken? jar.host = none ∧ x.carryOut jar = jar) ∨
      ∃ w, x.taken? jar.host = some w ∧ Rewrites w jar (x.carryOut jar)) ∧
    ∀ x y : JarWrite, ∀ v w, x.taken? jar.host = some v → y.taken? jar.host = some w →
      v.cookie.key ≠ w.cookie.key →
      Reordered (y.carryOut (x.carryOut jar)) (x.carryOut (y.carryOut jar)) := by
  intro jar
  have hlower : ∀ c ∈ (CookieJar.new host).host.toList, isBlank c = false := isBlank_lower hhost
  obtain ⟨hsound, hsame⟩ := (sound_new host).steps hlower ts
  refine ⟨hsame, ?_, fun c hc d hd => ?_, hsound.path, fun x => ?_, fun x y v w hx hy hvw => ?_⟩
  · exact List.pairwise_map.2 (hsound.apart.imp fun h => Cookie.sameKey_eq_false_iff.1 h)
  · obtain ⟨hnormal, hcovers⟩ := hsound.domains c hc d hd
    exact ⟨(lower_of_normalizeDomain hnormal).1, (lower_of_normalizeDomain hnormal).2, hnormal, hcovers⟩
  · cases hx : x.taken? jar.host with
    | none => exact .inl ⟨rfl, carryOut_of_none hx⟩
    | some w =>
      refine .inr ⟨w, rfl, ?_⟩
      rw [carryOut_of_some hx]
      exact hsound.rewrites w
  · have hx' : x.taken? (jar.settle w).host = some v := (host_settle w).symm ▸ hx
    have hy' : y.taken? (jar.settle v).host = some w := (host_settle v).symm ▸ hy
    rw [carryOut_of_some hx, carryOut_of_some hy, carryOut_of_some hx', carryOut_of_some hy']
    exact settle_comm hvw

/-- A visit to a shop with a cookie of the host alone, which is then written again. -/
def shopSteps : List JarStep :=
  [.write (.seed ⟨"seen", "1", none, "/"⟩), .visit "/shop", .write (.directive "seen=2" .epoch)]

/-- In the shop, a cookie of the host alone and one of the whole domain have different keys. -/
theorem jar_keyed_and_covered_shopSteps :
    let jar := (CookieJar.new "www.example.com").steps shopSteps
    let x := JarWrite.directive "seen=3; path=/shop" .epoch
    let y := JarWrite.directive "seen=4; domain=.Example.com" .epoch
    jar = ⟨"www.example.com", "/shop", [⟨"seen", "2", none, "/"⟩]⟩ ∧ (jar.cookies.map Cookie.key).Nodup ∧
      CookieJar.Reordered (y.carryOut (x.carryOut jar)) (x.carryOut (y.carryOut jar)) := by
  intro jar x y
  have hjar : jar = ⟨"www.example.com", "/shop", [⟨"seen", "2", none, "/"⟩]⟩ := by decide
  have hx : x.taken? jar.host = some ⟨⟨"seen", "3", none, "/shop"⟩, false⟩ := by decide
  have hy : y.taken? jar.host = some ⟨⟨"seen", "4", some "example.com", "/"⟩, false⟩ := by decide
  have hall : "www.example.com".toList.all (fun c => !isBlank c) = true := by decide
  have hhost : ∀ c ∈ "www.example.com".toList, isBlank c = false := fun c hc => by
    simpa using List.all_eq_true.1 hall c hc
  obtain ⟨-, hkeys, -, -, -, hcomm⟩ := jar_keyed_and_covered hhost shopSteps
  exact ⟨hjar, hkeys, hcomm x y _ _ hx hy (by decide)⟩

end PageSweep
