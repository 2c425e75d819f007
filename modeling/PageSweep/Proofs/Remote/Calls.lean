import PageSweep.Proofs.Remote.History

/-!
# Calls of a cache in order

References are resolved and the cache is cleared, one call after the other. Each call takes its time, and each
answer is whatever the net gives. What was asked and answered before a call tells all about its reply: the cache
itself cannot be seen through it. Times count thousandths of what the time to live counts, so the unit is free.

* `Recalls.fetch`, `Recalls.calls`: a cache recalls its history through all calls.
* `alike_of_failed`, `Alike.calls`: a call that fails leaves nothing that any later call could see.
* `replies_follow_history`: what all calls reply.
-/

namespace PageSweep

open CacheEvent

/-- What can be asked of a cache. -/
inductive CacheCall where
  /-- To resolve a reference: when the call begins, what is answered if the net is asked, and when that is
  taken in or the call is back without. -/
  | resolve (reference : String) (begun : Nat) (answer : Answer) (arrived : Nat)
  | clear
deriving DecidableEq, Repr

namespace CacheCall

/-- **Calls one after the other**, from a time on. -/
def InOrder : Nat → List CacheCall → Prop
  | _, [] => True
  | now, resolve _ begun _ arrived :: calls => now ≤ begun ∧ begun ≤ arrived ∧ InOrder arrived calls
  | now, clear :: calls => InOrder now calls

/-- The time when calls are back. -/
def timeAfter : Nat → List CacheCall → Nat
  | now, [] => now
  | _, resolve _ _ _ arrived :: calls => timeAfter arrived calls
  | now, clear :: calls => timeAfter now calls

theorem inOrder_append {xs ys : List CacheCall} {now : Nat} :
    InOrder now (xs ++ ys) ↔ InOrder now xs ∧ InOrder (timeAfter now xs) ys := by
  induction xs generalizing now with
  | nil => simp [InOrder, timeAfter]
  | cons x xs ih =>
    cases x with
    | resolve reference begun answer arrived => simp only [List.cons_append, InOrder, timeAfter, ih, and_assoc]
    | clear => exact ih

instance decidableInOrder : (now : Nat) → (calls : List CacheCall) → Decidable (InOrder now calls)
  | _, [] => .isTrue trivial
  | now, resolve _ begun _ arrived :: calls =>
    have := decidableInOrder arrived calls
    inferInstanceAs (Decidable (now ≤ begun ∧ begun ≤ arrived ∧ InOrder arrived calls))
  | now, clear :: calls => decidableInOrder now calls

end CacheCall

open CacheCall

namespace SchemaCache

variable {c d : SchemaCache} {past : List CacheEvent} {now : Nat}

/-- The cache after a call. -/
def call (c : SchemaCache) : CacheCall → SchemaCache
  | .resolve reference begun answer arrived => (c.fetch reference begun answer arrived).cache
  | .clear => c.clear

/-- What is seen of a call from outside: the requests with their answers, and clearings. -/
def seen (c : SchemaCache) : CacheCall → List CacheEvent
  | .resolve reference begun answer arrived =>
    (c.fetch reference begun answer arrived).asked.flatMap fun address =>
      [.asked address, .answered address answer arrived]
  | .clear => [.cleared]

def calls (c : SchemaCache) (xs : List CacheCall) : SchemaCache := xs.foldl call c

/-- What is seen of calls from outside. -/
def history (c : SchemaCache) : List CacheCall → List CacheEvent
  | [] => []
  | x :: xs => c.seen x ++ (c.call x).history xs

theorem ttl_fetch (c : SchemaCache) (reference : String) (begun : Nat) (answer : Answer) (arrived : Nat) :
    (c.fetch reference begun answer arrived).cache.ttl = c.ttl := by
  cases hs : c.shown begun (Gist.rawAddress reference).1 with
  | some s => rw [fetch_of_shown hs]
  | none => rw [fetch_of_not_shown hs, ttl_take, ttl_look]

theorem ttl_calls (c : SchemaCache) (xs : List CacheCall) : (c.calls xs).ttl = c.ttl := by
  induction xs generalizing c with
  | nil => rfl
  | cons x xs ih =>
    cases x with
    | resolve reference begun answer arrived => exact (ih _).trans (c.ttl_fetch reference begun answer arrived)
    | clear => exact ih _

/-- **A cache recalls its history through a fetch.** -/
theorem Recalls.fetch {reference : String} {begun arrived : Nat} (h : Recalls past begun c) (hle : begun ≤ arrived)
    (answer : Answer) :
    Recalls (past ++ c.seen (.resolve reference begun answer arrived)) arrived
      (c.fetch reference begun answer arrived).cache := by
  cases hs : c.shown begun (Gist.rawAddress reference).1 with
  | some s =>
    rw [seen, fetch_of_shown hs]
    show Recalls (past ++ []) arrived c
    rw [List.append_nil]
    exact h.later hle
  | none =>
    rw [seen, fetch_of_not_shown hs]
    have hlooked := ((h.look (Gist.rawAddress reference).1).later hle).silent
      (e := asked (Gist.rawAddress reference).1) fun _ => rfl
    have htaken := hlooked.take (Gist.rawAddress reference).1 answer
    rw [List.append_assoc] at htaken
    exact htaken

/-- **A cache recalls its history through all calls in order.** -/
theorem Recalls.calls {xs : List CacheCall} (h : Recalls past now c) (horder : InOrder now xs) :
    Recalls (past ++ c.history xs) (timeAfter now xs) (c.calls xs) := by
  induction xs generalizing past now c with
  | nil =>
    rw [history, List.append_nil]
    exact h
  | cons x xs ih =>
    rw [history, ← List.append_assoc]
    cases x with
    | resolve reference begun answer arrived =>
      obtain ⟨hbegun, harrived, hrest⟩ := horder
      exact ih ((h.later hbegun).fetch harrived answer) hrest
    | clear => exact ih (.clear past now c) horder

/-- Caches that cannot be told apart stay so through all calls in order. -/
theorem Alike.calls {xs : List CacheCall} (h : Alike now c d) (horder : InOrder now xs) :
    Alike (timeAfter now xs) (c.calls xs) (d.calls xs) := by
  induction xs generalizing now c d with
  | nil => exact h
  | cons x xs ih =>
    cases x with
    | resolve reference begun answer arrived =>
      obtain ⟨hbegun, harrived, hrest⟩ := horder
      exact ih ((h.later hbegun).fetch harrived reference answer).2.2 hrest
    | clear => exact ih ⟨h.ttl, fun _ => rfl⟩ horder

theorem content?_of_outcome {answer : Answer} {address : String} {e : Error}
    (h : answer.outcome address = .error e) : answer.content? = none := by
  cases answer with
  | unreachable => rfl
  | reply status body =>
    rw [Answer.outcome] at h
    split at h
    · cases h
    · rename_i hstatus
      rw [Answer.content?, if_neg]
      simpa [Answer.isSuccess] using hstatus

/-- **A call that fails leaves no trace**: the cache cannot be told apart from what it was. -/
theorem alike_of_failed {reference : String} {begun arrived : Nat} {answer : Answer} {e : Error}
    (hle : begun ≤ arrived) (h : (c.fetch reference begun answer arrived).result = .error e) :
    Alike arrived (c.fetch reference begun answer arrived).cache c := by
  cases hs : c.shown begun (Gist.rawAddress reference).1 with
  | some s =>
    rw [fetch_of_shown hs] at h
    cases h
  | none =>
    rw [fetch_of_not_shown hs] at h ⊢
    have hnone : answer.content? = none := content?_of_outcome h
    simp only
    rw [take_of_none hnone]
    exact ⟨ttl_look .., fun address => shown_look c hle _ address⟩

/-- References with one address are the same to a cache. -/
theorem fetch_congr {reference reference' : String}
    (h : (Gist.rawAddress reference').1 = (Gist.rawAddress reference).1) (begun : Nat) (answer : Answer)
    (arrived : Nat) :
    c.fetch reference' begun answer arrived =
      { c.fetch reference begun answer arrived with log := (Gist.rawAddress reference').2 } := by
  cases hs : c.shown begun (Gist.rawAddress reference).1 with
  | some s => rw [fetch_of_shown hs, fetch_of_shown (h ▸ hs)]
  | none => rw [fetch_of_not_shown hs, fetch_of_not_shown (h ▸ hs), h]

end SchemaCache

open SchemaCache in
/-- **Replies follow the history.** After any calls in order, begun with an empty cache, a reference is resolved.
If the latest answer for its address that carried a schema came since the last clearing and is still fresh, that
schema is the reply and the net is not asked. Otherwise the address is asked for once, and the reply is what the
answer says. All that is kept came with such an answer. If the call fails, every later call replies as if it had
not been made. And references that lead to one address are served alike. -/
theorem replies_follow_history (ttl : Nat) (before : List CacheCall) {reference : String} {begun arrived : Nat}
    {answer : Answer} (horder : InOrder 0 (before ++ [.resolve reference begun answer arrived])) :
    let c := (new ttl).calls before
    let past := (new ttl).history before
    let address := (Gist.rawAddress reference).1
    let r := c.fetch reference begun answer arrived
    (∀ s, latest? address past = some s → begun - s.fetchedAt < 1000 * ttl →
      r.asked = [] ∧ r.result = .ok s.content) ∧
    ((∀ s, latest? address past = some s → ¬ begun - s.fetchedAt < 1000 * ttl) →
      r.asked = [address] ∧ r.result = answer.outcome address) ∧
    (∀ other s, c.schemas.get? other = some s → latest? other past = some s) ∧
    (∀ e, r.result = .error e → ∀ later reference' begun' answer' arrived',
      InOrder arrived (later ++ [.resolve reference' begun' answer' arrived']) →
      let r₁ := (r.cache.calls later).fetch reference' begun' answer' arrived'
      let r₂ := (c.calls later).fetch reference' begun' answer' arrived'
      r₁.asked = r₂.asked ∧ r₁.result = r₂.result) ∧
    ∀ reference', (Gist.rawAddress reference').1 = address →
      let r' := c.fetch reference' begun answer arrived
      r'.asked = r.asked ∧ r'.result = r.result ∧ r'.cache = r.cache := by
  intro c past address r
  obtain ⟨hbefore, hbegun, harrived, -⟩ := inOrder_append.1 horder
  have hrecalls : Recalls past begun c := by
    have h := (recalls_new ttl).calls hbefore
    rw [List.nil_append] at h
    exact h.later hbegun
  have httl : c.ttl = ttl := ttl_calls (new ttl) before
  refine ⟨?_, ?_, hrecalls.keeps, ?_, ?_⟩
  · intro s hlatest hfresh
    have hs : c.shown begun address = some s := by
      rw [hrecalls.shows, hlatest]
      exact Option.filter_eq_some_iff.2 ⟨rfl, isFresh_iff.2 (httl ▸ hfresh)⟩
    have hr : r = _ := fetch_of_shown hs answer arrived
    rw [hr]
    exact ⟨rfl, rfl⟩
  · intro hstale
    have hs : c.shown begun address = none := by
      rw [hrecalls.shows, Option.filter_eq_none_iff]
      intro s hlatest hfresh
      exact hstale s hlatest (httl ▸ isFresh_iff.1 hfresh)
    have hr : r = _ := fetch_of_not_shown hs answer arrived
    rw [hr]
    exact ⟨rfl, rfl⟩
  · intro e hfailed later reference' begun' answer' arrived' horder'
    obtain ⟨hlater, hbegun', harrived', -⟩ := inOrder_append.1 horder'
    have halike := ((alike_of_failed harrived hfailed).calls hlater).later hbegun'
    obtain ⟨hresult, hasked, -⟩ := halike.fetch harrived' reference' answer'
    exact ⟨hasked, hresult⟩
  · intro reference' haddress r'
    have hr' : r' = _ := fetch_congr haddress begun answer arrived
    rw [hr']
    exact ⟨rfl, rfl, rfl⟩

/-- The page of a gist is resolved, and something that is not there. -/
def gistCalls : List CacheCall :=
  [.resolve "https://gist.github.com/alice/abc123" 0 (.reply 200 "[]") 5,
    .resolve "https://rules.example/lost.json" 10 (.reply 404 "gone") 12]

open SchemaCache in
theorem replies_follow_history_gistCalls :
    let c := (new 60).calls gistCalls
    let past := (new 60).history gistCalls
    let owned := "https://gist.github.com/bob/abc123"
    let lost := "https://rules.example/lost.json"
    let raw := "https://gist.githubusercontent.com/raw/abc123/"
    (InOrder 0 (gistCalls ++ [.resolve owned 30000 .unreachable 30001]) ∧
      latest? raw past = some ⟨"[]", 5⟩ ∧
      (c.fetch owned 30000 .unreachable 30001).asked = [] ∧
      (c.fetch owned 30000 .unreachable 30001).result = .ok "[]") ∧
    (InOrder 0 (gistCalls ++ [.resolve lost 30000 (.reply 500 "") 30001]) ∧ latest? lost past = none ∧
      (c.fetch lost 30000 (.reply 500 "") 30001).asked = [lost] ∧
      (c.fetch lost 30000 (.reply 500 "") 30001).result = .error (.remoteLoad lost 500)) := by
  intro c past owned lost raw
  have horder : InOrder 0 (gistCalls ++ [.resolve owned 30000 .unreachable 30001]) := by decide
  have horder' : InOrder 0 (gistCalls ++ [.resolve lost 30000 (.reply 500 "") 30001]) := by decide
  have hlatest : latest? raw past = some ⟨"[]", 5⟩ := by decide
  have hlatest' : latest? lost past = none := by decide
  have hraw : (Gist.rawAddress owned).1 = raw := by decide
  have hlost : (Gist.rawAddress lost).1 = lost := by decide
  refine ⟨⟨horder, hlatest, ?_⟩, horder', hlatest', ?_⟩
  · rw [← hraw] at hlatest
    exact (replies_follow_history 60 gistCalls horder).1 _ hlatest (by decide)
  · have hreply := (replies_follow_history 60 gistCalls horder').2.1
    rw [hlost] at hreply
    exact hreply fun s hs => by rw [hlatest'] at hs; cases hs

end PageSweep
