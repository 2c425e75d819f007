import PageSweep.Proofs.Remote.Faithful

/-!
# What a cache remembers

A cache is told from outside by what the net was asked and what it answered. What is known of an address is what
the latest answer for it carried that carried anything, if nothing was cleared since. A cache shows of that what
is fresh, no more and no less: a schema that is dropped is not fresh at any later time, and an answer that fails
leaves no trace.

* `latest?_eq_some_iff`: what is known of an address, read off the history.
* `shown_look`, `shown_take`, `shown_later`: what the two halves of a fetch and the time do to what a cache shows.
* `fetch_of_shown`, `fetch_of_not_shown`: a fetch depends on what the cache shows for its address, and on nothing
  else.
* `Alike.fetch`: caches that show the same reply the same.
* `Recalls.look`, `Recalls.take`, `Recalls.clear`: a cache goes on to show what its history tells.
-/

namespace PageSweep

/-- What happens around a cache. -/
inductive CacheEvent where
  | cleared
  /-- A schema was found in the cache. -/
  | found (address content : String)
  /-- The net was asked for an address. -/
  | asked (address : String)
  /-- An answer for an address was taken in, at a time. -/
  | answered (address : String) (answer : Answer) (time : Nat)
deriving DecidableEq, Repr

namespace CacheEvent

/-- What an event says of an address: that nothing is known, or what an answer carried. Most events say nothing. -/
def lesson? (address : String) : CacheEvent → Option (Option CachedSchema)
  | cleared => some none
  | answered a answer time =>
    if a = address then answer.content?.map fun content => some ⟨content, time⟩ else none
  | _ => none

/-- **What is known of an address** is what the last event says that says something: what the latest answer for it
carried that carried anything, if nothing was cleared since, and when that answer came. -/
def latest? (address : String) (past : List CacheEvent) : Option CachedSchema :=
  (past.reverse.findSome? (lesson? address)).join

variable {address : String} {past : List CacheEvent} {s : CachedSchema}

theorem latest?_concat (address : String) (past : List CacheEvent) (e : CacheEvent) :
    latest? address (past ++ [e]) = (e.lesson? address).getD (latest? address past) := by
  rw [latest?, List.reverse_append, List.reverse_singleton, List.singleton_append, List.findSome?_cons]
  cases e.lesson? address with
  | none => rfl
  | some known => rfl

/-- **What is known of an address came with an answer for it** that carries it, and no event since then says
anything of the address. -/
theorem latest?_eq_some_iff : latest? address past = some s ↔
    ∃ before answer later, past = before ++ answered address answer s.fetchedAt :: later ∧
      answer.content? = some s.content ∧ ∀ e ∈ later, e.lesson? address = none := by
  rw [latest?, Option.join_eq_some_iff, List.findSome?_eq_some_iff]
  constructor
  · rintro ⟨later, e, before, hpast, hlesson, hlater⟩
    have hpast' : past = before.reverse ++ e :: later.reverse := by
      rw [← List.reverse_inj, hpast]
      simp
    refine ⟨before.reverse, ?_⟩
    cases e with
    | cleared => cases hlesson
    | found a content => cases hlesson
    | asked a => cases hlesson
    | answered a answer time =>
      rw [lesson?] at hlesson
      split at hlesson
      · rename_i ha
        obtain ⟨content, hcontent, hs⟩ := Option.map_eq_some_iff.1 hlesson
        obtain rfl : ⟨content, time⟩ = s := Option.some.inj hs
        exact ⟨answer, later.reverse, ha ▸ hpast', hcontent, fun e he => hlater e (List.mem_reverse.1 he)⟩
      · cases hlesson
  · rintro ⟨before, answer, later, rfl, hcontent, hlater⟩
    refine ⟨later.reverse, answered address answer s.fetchedAt, before.reverse, by simp, ?_, ?_⟩
    · rw [lesson?, if_pos rfl, hcontent]
      rfl
    · exact fun e he => hlater e (List.mem_reverse.1 he)

end CacheEvent

open CacheEvent

/-- What a request for an address leads to. -/
def Answer.outcome (address : String) : Answer → Except Error String
  | .reply status body =>
    if 200 ≤ status ∧ status < 300 then .ok body else .error (.remoteLoad address status)
  | .unreachable => .error .transport

namespace SchemaCache

/-- The schema behind a reference, when the answer takes its time. -/
def fetch (c : SchemaCache) (reference : String) (begun : Nat) (answer : Answer) (arrived : Nat) : Resolved :=
  let (address, log) := Gist.rawAddress reference
  match c.look begun address with
  | (some content, c) => ⟨.ok content, c, [], log⟩
  | (none, c) =>
    let (result, c) := c.take arrived address answer
    ⟨result, c, [address], log⟩

/-- Resolving is a fetch whose answer is there at once. -/
theorem resolve_eq_fetch (c : SchemaCache) (answers : String → Answer) (now : Nat) (reference : String) :
    c.resolve answers now reference =
      c.fetch reference now (answers (Gist.rawAddress reference).1) now := rfl

variable {c d : SchemaCache} {past : List CacheEvent} {now : Nat}

/-- **What a cache shows of an address at a time**: what is kept under it, if that is fresh. -/
def shown (c : SchemaCache) (now : Nat) (address : String) : Option CachedSchema :=
  (c.schemas.get? address).filter (c.isFresh now)

theorem isFresh_iff {s : CachedSchema} : c.isFresh now s = true ↔ now - s.fetchedAt < 1000 * c.ttl := by
  simp [isFresh]

/-- What is fresh was fresh before. -/
theorem isFresh_of_le {s : CachedSchema} {t : Nat} (ht : now ≤ t) (h : c.isFresh t s = true) :
    c.isFresh now s = true := by
  rw [isFresh_iff] at h ⊢
  omega

theorem filter_isFresh {t : Nat} (ht : now ≤ t) (known : Option CachedSchema) :
    (known.filter (c.isFresh now)).filter (c.isFresh t) = known.filter (c.isFresh t) := by
  rw [Option.filter_filter]
  congr 1
  funext s
  cases hs : c.isFresh t s with
  | false => rw [Bool.and_false]
  | true => rw [isFresh_of_le ht hs, Bool.and_true]

theorem ttl_look (c : SchemaCache) (now : Nat) (address : String) : (c.look now address).2.ttl = c.ttl := by
  unfold look
  split
  · rfl
  · split <;> rfl

theorem ttl_take (c : SchemaCache) (now : Nat) (address : String) (answer : Answer) :
    (c.take now address answer).2.ttl = c.ttl := by
  unfold take
  split
  · rfl
  · split <;> rfl

theorem isFresh_congr (h : c.ttl = d.ttl) (now : Nat) : c.isFresh now = d.isFresh now := by
  funext s
  rw [isFresh, isFresh, h]

/-- **With time a cache shows less**, namely what is still fresh. -/
theorem shown_later (c : SchemaCache) {t : Nat} (ht : now ≤ t) (address : String) :
    c.shown t address = (c.shown now address).filter (c.isFresh t) := by
  rw [shown, shown, filter_isFresh ht]

theorem look_fst (c : SchemaCache) (now : Nat) (address : String) :
    (c.look now address).1 = (c.shown now address).map CachedSchema.content := by
  unfold look shown
  cases c.schemas.get? address with
  | none => rfl
  | some s =>
    simp only [Option.filter_some]
    split <;> rfl

/-- Looking drops nothing that a cache shows then or later. -/
theorem shown_look (c : SchemaCache) {t : Nat} (ht : now ≤ t) (address other : String) :
    (c.look now address).2.shown t other = c.shown t other := by
  rw [shown, shown, isFresh_congr (c.ttl_look now address)]
  unfold look
  cases hget : c.schemas.get? address with
  | none => rfl
  | some s =>
    simp only
    split
    · rfl
    · rename_i hstale
      simp only [Table.get?_erase]
      split
      · rename_i heq
        have hlater : c.isFresh t s = false :=
          Bool.eq_false_iff.2 fun hfresh => hstale (isFresh_of_le ht hfresh)
        rw [← heq, hget, Option.filter_some, hlater]
        rfl
      · rfl

/-- An answer that carries nothing leaves no trace. -/
theorem take_of_none {answer : Answer} (h : answer.content? = none) (now : Nat) (address : String) :
    (c.take now address answer).2 = c := by
  cases answer with
  | unreachable => rfl
  | reply status body =>
    rw [Answer.content?] at h
    split at h
    · cases h
    · rename_i hfail
      rw [take, if_neg hfail]

/-- What an answer carries is kept under its address. -/
theorem take_of_some {answer : Answer} {content : String} (h : answer.content? = some content) (now : Nat)
    (address : String) :
    (c.take now address answer).2 = { c with schemas := c.schemas.insert address ⟨content, now⟩ } := by
  cases answer with
  | unreachable => cases h
  | reply status body =>
    rw [Answer.content?] at h
    split at h
    · rename_i hsuccess
      rw [take, if_pos hsuccess, Option.some.inj h]
    · cases h

/-- **What an answer carries shows up for its address**, and for no other. -/
theorem shown_take {answer : Answer} {content : String} (h : answer.content? = some content) (now t : Nat)
    (address other : String) :
    (c.take now address answer).2.shown t other =
      if address = other then (some ⟨content, now⟩ : Option CachedSchema).filter (c.isFresh t)
      else c.shown t other := by
  rw [shown, shown, isFresh_congr (c.ttl_take now address answer), take_of_some h, Table.get?_insert]
  split <;> rfl

/-- What comes of a request is what its answer says. -/
theorem take_fst (c : SchemaCache) (now : Nat) (address : String) (answer : Answer) :
    (c.take now address answer).1 = answer.outcome address := by
  cases answer with
  | unreachable => rfl
  | reply status body =>
    simp only [take, Answer.outcome, Answer.isSuccess, Bool.and_eq_true, decide_eq_true_eq]
    split <;> rfl

/-- **What is shown is served**, the net is not asked, and the cache stays as it is. -/
theorem fetch_of_shown {reference : String} {begun : Nat} {s : CachedSchema}
    (h : c.shown begun (Gist.rawAddress reference).1 = some s) (answer : Answer) (arrived : Nat) :
    c.fetch reference begun answer arrived = ⟨.ok s.content, c, [], (Gist.rawAddress reference).2⟩ := by
  obtain ⟨hget, hfresh⟩ := Option.filter_eq_some_iff.1 h
  simp only [fetch, look, hget, hfresh, if_true]

/-- **What is not shown is asked for**, once. -/
theorem fetch_of_not_shown {reference : String} {begun : Nat}
    (h : c.shown begun (Gist.rawAddress reference).1 = none) (answer : Answer) (arrived : Nat) :
    let address := (Gist.rawAddress reference).1
    c.fetch reference begun answer arrived =
      ⟨answer.outcome address, ((c.look begun address).2.take arrived address answer).2, [address],
        (Gist.rawAddress reference).2⟩ := by
  intro address
  have hlook : (c.look begun address).1 = none := by rw [look_fst, h]; rfl
  unfold fetch
  simp only
  cases hl : c.look begun (Gist.rawAddress reference).1 with
  | mk found c' =>
    rw [hl] at hlook
    subst hlook
    simp only [address]
    rw [← take_fst c' arrived]

/-! ### Caches that show the same -/

/-- **Caches that cannot be told apart** from a time on. -/
structure Alike (now : Nat) (c d : SchemaCache) : Prop where
  ttl : c.ttl = d.ttl
  shown : ∀ address, c.shown now address = d.shown now address

theorem Alike.later (h : Alike now c d) {t : Nat} (ht : now ≤ t) : Alike t c d := by
  refine ⟨h.ttl, fun address => ?_⟩
  rw [shown_later c ht, shown_later d ht, h.shown, isFresh_congr h.ttl]

/-- Taking in the same answer keeps caches alike. -/
theorem Alike.take (h : Alike now c d) (answer : Answer) (address : String) :
    Alike now (c.take now address answer).2 (d.take now address answer).2 := by
  refine ⟨by rw [ttl_take, ttl_take, h.ttl], fun other => ?_⟩
  cases hcontent : answer.content? with
  | none =>
    rw [take_of_none hcontent, take_of_none hcontent]
    exact h.shown other
  | some content =>
    rw [shown_take hcontent, shown_take hcontent, h.shown, isFresh_congr h.ttl]

/-- **Caches that cannot be told apart reply the same**, and cannot be told apart afterwards. -/
theorem Alike.fetch {begun arrived : Nat} (h : Alike begun c d) (hle : begun ≤ arrived) (reference : String)
    (answer : Answer) :
    let r := c.fetch reference begun answer arrived
    let r' := d.fetch reference begun answer arrived
    r.result = r'.result ∧ r.asked = r'.asked ∧ Alike arrived r.cache r'.cache := by
  intro r r'
  have hshown := h.shown (Gist.rawAddress reference).1
  cases hs : d.shown begun (Gist.rawAddress reference).1 with
  | some s =>
    have hr : r = _ := fetch_of_shown (hshown.trans hs) answer arrived
    have hr' : r' = _ := fetch_of_shown hs answer arrived
    rw [hr, hr']
    exact ⟨rfl, rfl, h.later hle⟩
  | none =>
    have hr : r = _ := fetch_of_not_shown (hshown.trans hs) answer arrived
    have hr' : r' = _ := fetch_of_not_shown hs answer arrived
    rw [hr, hr']
    have hlooked : Alike arrived (c.look begun (Gist.rawAddress reference).1).2
        (d.look begun (Gist.rawAddress reference).1).2 := by
      refine ⟨by rw [ttl_look, ttl_look, h.ttl], fun address => ?_⟩
      rw [shown_look c hle, shown_look d hle]
      exact (h.later hle).shown address
    exact ⟨rfl, rfl, hlooked.take answer _⟩

/-! ### Caches and their histories -/

/-- **A cache keeps nothing but what is known from its history.** -/
def Keeps (past : List CacheEvent) (c : SchemaCache) : Prop :=
  ∀ address s, c.schemas.get? address = some s → latest? address past = some s

theorem keeps_new (ttl : Nat) : (new ttl).Keeps [] := fun _ _ h => by cases h

theorem Keeps.look (h : c.Keeps past) (now : Nat) (address : String) : (c.look now address).2.Keeps past := by
  unfold SchemaCache.look
  split
  · exact h
  · split
    · exact h
    · intro other s hs
      rw [Table.get?_erase] at hs
      split at hs
      · cases hs
      · exact h other s hs

/-- What is found in a cache is known from its history. -/
theorem Keeps.found (h : c.Keeps past) {address content : String}
    (hfound : (c.look now address).1 = some content) : ∃ time, latest? address past = some ⟨content, time⟩ := by
  rw [look_fst] at hfound
  obtain ⟨s, hs, rfl⟩ := Option.map_eq_some_iff.1 hfound
  exact ⟨s.fetchedAt, h address s (Option.filter_eq_some_iff.1 hs).1⟩

theorem Keeps.take (h : c.Keeps past) (now : Nat) (address : String) (answer : Answer) :
    (c.take now address answer).2.Keeps (past ++ [answered address answer now]) := by
  intro other s hs
  rw [latest?_concat, lesson?]
  cases hcontent : answer.content? with
  | none =>
    rw [take_of_none hcontent] at hs
    rw [Option.map_none, ite_self]
    exact h other s hs
  | some content =>
    rw [take_of_some hcontent, Table.get?_insert] at hs
    split at hs
    · rename_i haddress
      rw [if_pos haddress, ← Option.some.inj hs]
      rfl
    · rename_i haddress
      rw [if_neg haddress]
      exact h other s hs

theorem Keeps.clear (past : List CacheEvent) (c : SchemaCache) : c.clear.Keeps (past ++ [cleared]) :=
  fun _ _ h => by cases h

/-- An event that says nothing of any address makes no difference. -/
theorem Keeps.silent (h : c.Keeps past) {e : CacheEvent} (he : ∀ address, e.lesson? address = none) :
    c.Keeps (past ++ [e]) := by
  intro address s hs
  rw [latest?_concat, he]
  exact h address s hs

/-- **A cache recalls its history** at a time: it keeps nothing else, and it shows all that is fresh. -/
structure Recalls (past : List CacheEvent) (now : Nat) (c : SchemaCache) : Prop where
  keeps : c.Keeps past
  shows : ∀ address, c.shown now address = (latest? address past).filter (c.isFresh now)

theorem recalls_new (ttl : Nat) : Recalls [] 0 (new ttl) := ⟨keeps_new ttl, fun _ => rfl⟩

theorem Recalls.later (h : Recalls past now c) {t : Nat} (ht : now ≤ t) : Recalls past t c := by
  refine ⟨h.keeps, fun address => ?_⟩
  rw [shown_later c ht, h.shows, filter_isFresh ht]

theorem Recalls.look (h : Recalls past now c) (address : String) :
    Recalls past now (c.look now address).2 := by
  refine ⟨h.keeps.look now address, fun other => ?_⟩
  rw [shown_look c (Nat.le_refl now), isFresh_congr (c.ttl_look now address)]
  exact h.shows other

theorem Recalls.take (h : Recalls past now c) (address : String) (answer : Answer) :
    Recalls (past ++ [answered address answer now]) now (c.take now address answer).2 := by
  refine ⟨h.keeps.take now address answer, fun other => ?_⟩
  rw [latest?_concat, lesson?, isFresh_congr (c.ttl_take now address answer)]
  cases hcontent : answer.content? with
  | none =>
    rw [take_of_none hcontent, Option.map_none, ite_self]
    exact h.shows other
  | some content =>
    rw [shown_take hcontent, h.shows]
    split <;> rfl

theorem Recalls.silent (h : Recalls past now c) {e : CacheEvent} (he : ∀ address, e.lesson? address = none) :
    Recalls (past ++ [e]) now c := by
  refine ⟨h.keeps.silent he, fun address => ?_⟩
  rw [latest?_concat, he]
  exact h.shows address

theorem Recalls.clear (past : List CacheEvent) (now : Nat) (c : SchemaCache) :
    Recalls (past ++ [cleared]) now c.clear := by
  refine ⟨.clear past c, fun address => ?_⟩
  rw [latest?_concat]
  rfl

end SchemaCache

end PageSweep
