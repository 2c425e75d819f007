import PageSweep.Proofs.Crowd.OpenPage
import PageSweep.Proofs.Remote.Traffic

/-!
# Open pages on a slow net

A walk that asks the net for a schema waits for the answer, and while it waits others may come, step, replace the
handlers and clear the cache. There is one walk at a time, so at most one request is on its way; but the answer to
it is kept whenever it comes. So a clearing does not reach a schema that is on its way, and what is found
afterwards may have been asked for before.

* `OnlinePage.exists_run_openPage`: an open page is one whose net answers at once.
* `Watched.step`: what the history of a page says, kept by every move.
* `Traffic.found`: where what is found in the cache came from.
* `clearing_outlived_only_in_flight`: all runs of a page on a slow net.
* `clearing_is_outlived`: a run in which a schema outlives a clearing.
-/

namespace PageSweep

/-! ### The two halves of a visit -/

/-- The address that a handler's schema is asked for under. -/
def Handler.address (h : Handler) : String := (Gist.rawAddress (Text.trim h.schema)).1

namespace Walk

/-- Runs the pass of a handler, if its schema text has something for the host. -/
def use (opened : Instant) (h : Handler) (text : String) (w : Walk) : Walk :=
  let (group, log) := ActionGroup.detectText text
  let w := { w with log := w.log ++ log }
  match group.select? h w.page.hostname with
  | none => w
  | some schema => w.pass opened h group.shapeName schema

/-- The first half: looks into the cache for the schema of a handler. What is not there is asked for. -/
def seek (h : Handler) (w : Walk) : Option String × Walk :=
  let (text?, cache) := w.cache.look w.clock h.address
  (text?, { w with
    cache := cache
    asked := w.asked ++ if text?.isSome then [] else [h.address]
    log := w.log ++ (Gist.rawAddress (Text.trim h.schema)).2 })

/-- The second half: takes in what came for a handler, and goes on with it or passes the handler over. -/
def receive (opened : Instant) (h : Handler) (answer : Answer) (w : Walk) : Walk :=
  let (result, cache) := w.cache.take w.clock h.address answer
  match result with
  | .ok text => { w with cache := cache }.use opened h text
  | .error e => { w with cache := cache, log := w.log ++ [.handlerSkipped h.name e] }

variable {w w' : Walk} {h : Handler} {opened : Instant} {text : String}

/-- A walk goes to a handler with its schema text, found or not. -/
theorem visit_of_local (answers : String → Answer) (opened : Instant) (hlocal : h.isRemote = false) :
    w.visit answers opened h = w.use opened h h.schema := by
  rw [visit, schemaOf, hlocal]
  rfl

theorem visit_of_remote (answers : String → Answer) (opened : Instant) (hremote : h.isRemote = true) :
    w.visit answers opened h =
      match w.seek h with
      | (some text, w) => w.use opened h text
      | (none, w) => w.receive opened h (answers h.address) := by
  rw [visit, schemaOf, hremote]
  cases hlook : w.cache.look w.clock h.address with
  | mk text? cache =>
    simp only [seek, hlook]
    rw [Handler.address] at hlook
    simp only [SchemaCache.resolve, hlook, if_true]
    cases text? with
    | some text => rfl
    | none =>
      simp only [receive, Handler.address]
      cases cache.take w.clock (Gist.rawAddress (Text.trim h.schema)).1
          (answers (Gist.rawAddress (Text.trim h.schema)).1) with
      | mk result cache' =>
        cases result with
        | ok text => rfl
        | error e => rfl

theorem cache_use (w : Walk) (opened : Instant) (h : Handler) (text : String) :
    (w.use opened h text).cache = w.cache := by
  unfold use
  simp only
  split <;> rfl

theorem cache_receive (w : Walk) (opened : Instant) (h : Handler) (answer : Answer) :
    (w.receive opened h answer).cache = (w.cache.take w.clock h.address answer).2 := by
  unfold receive
  cases w.cache.take w.clock h.address answer with
  | mk result cache =>
    cases result with
    | ok text => exact cache_use _ opened h text
    | error e => rfl

end Walk

/-! ### Pages on a slow net -/

/-- A page that is open on a slow net: the handler whose schema its walk waits for, and what happened around the
cache since the page was opened. -/
structure OnlinePage where
  page : OpenPage
  awaited : Option Handler
  past : List CacheEvent

namespace OnlinePage

/-- What can happen next. Handlers are replaced and the cache is cleared one after the other. -/
inductive Move where
  | call
  | replace (handlers : List Handler)
  | clear
  /-- The call of a number takes its next step at the gate. -/
  | step (i : Nat)
  /-- The call of a number goes on to the next handler of its walk, at a time. -/
  | goOn (i : Nat) (clock : Nat)
  /-- What the call of a number waits for comes, at a time. -/
  | receive (i : Nat) (answer : Answer) (clock : Nat)
  | comeBack (i : Nat)

def start (page : Page) (maxDepth ttl : Nat) (handlers : List Handler) (opened : Instant) : OnlinePage :=
  ⟨.start page maxDepth ttl handlers opened, none, []⟩

/-- The page with another walk. -/
def put (s : OnlinePage) (w : Walk) : OnlinePage := { s with page := { s.page with walk := w } }

/-- The page with other handlers ahead. -/
def leave (s : OnlinePage) (ahead : List Handler) : OnlinePage := { s with page := { s.page with ahead := ahead } }

/-- The walk goes to a handler: it finds the schema, or asks for it and waits. -/
def visit (s : OnlinePage) (h : Handler) (w : Walk) : OnlinePage :=
  if h.isRemote then
    match w.seek h with
    | (some text, w) => { s.put (w.use s.page.opened h text) with past := s.past ++ [.found h.address text] }
    | (none, w) => { s.put w with awaited := some h, past := s.past ++ [.asked h.address] }
  else s.put (w.use s.page.opened h h.schema)

/-- One move. A move that is not possible changes nothing. -/
def step (s : OnlinePage) : Move → OnlinePage
  | .call => { s with page := s.page.step .call }
  | .replace handlers => { s with page := { s.page with crowd := s.page.crowd.step (.reset handlers) } }
  | .clear =>
    { s.put { s.page.walk with cache := s.page.walk.cache.clear } with past := s.past ++ [.cleared] }
  | .step i => { s with page := s.page.step (.step i) }
  | .goOn i clock =>
    if s.page.IsAt i .walk ∧ s.page.walk.halted = false ∧ s.awaited = none then
      match s.page.ahead with
      | [] => s
      | h :: hs => (s.leave hs).visit h { s.page.walk with clock := clock }
    else s
  | .receive i answer clock =>
    if s.page.IsAt i .walk then
      match s.awaited with
      | none => s
      | some h =>
        { s.put ({ s.page.walk with clock := clock }.receive s.page.opened h answer) with
          awaited := none
          past := s.past ++ [.answered h.address answer clock] }
    else s
  | .comeBack i => if s.awaited = none then { s with page := s.page.step (.comeBack i) } else s

def run (s : OnlinePage) (ms : List Move) : OnlinePage := ms.foldl step s

variable {s : OnlinePage}

/-- Replacing the handlers and then clearing the cache is a reset. -/
theorem page_replace_clear (s : OnlinePage) (handlers : List Handler) :
    ((s.step (.replace handlers)).step .clear).page = s.page.step (.reset handlers) := rfl

theorem visit_of_local {h : Handler} (hlocal : h.isRemote = false) (s : OnlinePage) (w : Walk) :
    s.visit h w = s.put (w.use s.page.opened h h.schema) := by
  simp [visit, hlocal]

/-- The walk is through with a handler at once, or it waits and is through with it when the answer is there. -/
theorem visit_cases (s : OnlinePage) (h : Handler) (w : Walk) (answers : String → Answer) :
    let s' := s.visit h w
    let w' := w.visit answers s.page.opened h
    (s'.awaited = s.awaited ∧ s'.page = (s.put w').page) ∨
      ∃ v, s'.awaited = some h ∧ s'.page = (s.put v).page ∧
        v.receive s.page.opened h (answers h.address) = w' := by
  intro s' w'
  cases hremote : h.isRemote with
  | false =>
    have hw : w' = w.use s.page.opened h h.schema := Walk.visit_of_local answers _ hremote
    have hs : s' = s.put (w.use s.page.opened h h.schema) := visit_of_local hremote s w
    exact .inl (by rw [hs, hw]; exact ⟨rfl, rfl⟩)
  | true =>
    have hw : w' = _ := Walk.visit_of_remote answers s.page.opened hremote
    have hs : s' = _ := if_pos hremote
    cases hseek : w.seek h with
    | mk text? v =>
      rw [hseek] at hw hs
      cases text? with
      | some text => exact .inl (by rw [hs, hw]; exact ⟨rfl, rfl⟩)
      | none => exact .inr ⟨v, by rw [hs], by rw [hs], hw.symm⟩

/-- What a walk waits for comes at once. -/
theorem step_receive {i : Nat} {h : Handler} {w : Walk} (hi : s.page.IsAt i .walk) (hwaits : s.awaited = some h)
    (hwalk : s.page.walk = w) (answer : Answer) :
    let s' := s.step (.receive i answer w.clock)
    s'.page = (s.put (w.receive s.page.opened h answer)).page ∧ s'.awaited = none := by
  subst hwalk
  intro s'
  have hs' : s' = _ := if_pos hi
  rw [hs', hwaits]
  exact ⟨rfl, rfl⟩

/-- Going on to a handler whose schema comes at once, if it is asked for. -/
theorem exists_run_goOn (hs : s.awaited = none) (i : Nat) (answers : String → Answer) (clock : Nat) :
    ∃ ms, (s.run ms).page = s.page.step (.goOn i answers clock) ∧ (s.run ms).awaited = none := by
  by_cases hi : s.page.IsAt i .walk ∧ s.page.walk.halted = false
  · rw [OpenPage.step, if_pos hi]
    cases hahead : s.page.ahead with
    | nil => exact ⟨[], rfl, hs⟩
    | cons h handlers =>
      have hgo : s.step (.goOn i clock) = (s.leave handlers).visit h { s.page.walk with clock := clock } := by
        rw [step, if_pos ⟨hi.1, hi.2, hs⟩, hahead]
      have hcases := (s.leave handlers).visit_cases h { s.page.walk with clock := clock } answers
      -- What the walk does at the handler stays closed: only how it is reached matters here.
      simp only
      generalize ({ s.page.walk with clock := clock } : Walk) = w at hgo hcases ⊢
      generalize hvisit : w.visit answers s.page.opened h = w' at hcases ⊢
      rw [← hgo] at hcases
      rcases hcases with ⟨hthrough, hpage⟩ | ⟨v, hwaits, hpage, hv⟩
      · exact ⟨[.goOn i clock], hpage.trans (by rw [← hvisit]; rfl), hthrough.trans hs⟩
      · have hi' : (s.step (.goOn i clock)).page.IsAt i .walk := by
          rw [hpage]
          exact hi.1
        have hwalk : (s.step (.goOn i clock)).page.walk = v := by rw [hpage]; rfl
        obtain ⟨hpage', hthrough⟩ := step_receive hi' hwaits hwalk (answers h.address)
        refine ⟨[.goOn i clock, .receive i (answers h.address) v.clock], hpage'.trans ?_, hthrough⟩
        rw [put, hpage, ← hvisit]
        exact congrArg (fun w => { s.page with walk := w, ahead := handlers }) hv
  · rw [OpenPage.step, if_neg hi]
    exact ⟨[], rfl, hs⟩

/-- Every move of an open page is made of moves of the same page on a net that answers at once. -/
theorem exists_run_step (hs : s.awaited = none) (m : OpenPage.Move) :
    ∃ ms, (s.run ms).page = s.page.step m ∧ (s.run ms).awaited = none := by
  cases m with
  | call => exact ⟨[.call], rfl, hs⟩
  | reset handlers => exact ⟨[.replace handlers, .clear], s.page_replace_clear handlers, hs⟩
  | step i => exact ⟨[.step i], rfl, hs⟩
  | goOn i answers clock => exact exists_run_goOn hs i answers clock
  | comeBack i =>
    have hback : s.run [.comeBack i] = { s with page := s.page.step (.comeBack i) } := if_pos hs
    exact ⟨[.comeBack i], by rw [hback], by rw [hback]; exact hs⟩

/-- **An open page is a page on a net that answers at once**: whatever it does in a run, a page on a slow net can
do. -/
theorem exists_run_openPage (hs : s.awaited = none) (ms : List OpenPage.Move) :
    ∃ ns, (s.run ns).page = s.page.run ms ∧ (s.run ns).awaited = none := by
  induction ms generalizing s with
  | nil => exact ⟨[], rfl, hs⟩
  | cons m ms ih =>
    obtain ⟨first, hpage, hfirst⟩ := exists_run_step hs m
    obtain ⟨rest, hrest, hthrough⟩ := ih hfirst
    have hrun : s.run (first ++ rest) = (s.run first).run rest := List.foldl_append
    refine ⟨first ++ rest, ?_, by rw [hrun]; exact hthrough⟩
    rw [hrun, hrest, hpage]
    rfl

end OnlinePage

/-! ### Histories of pages -/

open CacheEvent

namespace OnlinePage

/-- **The history of a page on a slow net**: its cache keeps what is known, and what is asked for comes before
anything else is asked for. -/
structure Watched (s : OnlinePage) : Prop where
  keeps : s.page.walk.cache.Keeps s.past
  traffic : Traffic s.past (s.awaited.map Handler.address)

variable {s : OnlinePage}

theorem watched_start (page : Page) (maxDepth ttl : Nat) (handlers : List Handler) (opened : Instant) :
    (start page maxDepth ttl handlers opened).Watched := ⟨SchemaCache.keeps_new ttl, .quiet⟩

/-- What the cache and its history do not see. -/
theorem Watched.unseen (h : s.Watched) {p : OpenPage} (hcache : p.walk.cache = s.page.walk.cache) :
    Watched { s with page := p } := ⟨hcache ▸ h.keeps, h.traffic⟩

/-- Going to a handler: what is found is known, and what is asked for is the only thing on its way. -/
theorem Watched.visit (h : s.Watched) (hs : s.awaited = none) (hd : Handler) {w : Walk}
    (hw : w.cache = s.page.walk.cache) : (s.visit hd w).Watched := by
  have hkeeps : w.cache.Keeps s.past := hw ▸ h.keeps
  have htraffic : Traffic s.past none := by
    have := h.traffic
    rwa [hs] at this
  cases hremote : hd.isRemote with
  | false =>
    rw [visit_of_local hremote]
    exact h.unseen ((Walk.cache_use w _ hd _).trans hw)
  | true =>
    have hvisit : s.visit hd w = _ := if_pos hremote
    have hlook : (w.cache.look w.clock hd.address).1 = (w.seek hd).1 := rfl
    have hcache : (w.seek hd).2.cache.Keeps s.past := hkeeps.look w.clock hd.address
    rw [hvisit]
    cases hseek : w.seek hd with
    | mk text? v =>
      rw [hseek] at hlook hcache
      cases text? with
      | some text =>
        -- Whatever the cache gives, it keeps, and so it is known.
        obtain ⟨time, hknown⟩ := hkeeps.found hlook
        refine ⟨?_, ?_⟩
        · have huse : (v.use s.page.opened hd text).cache.Keeps s.past := by
            rw [Walk.cache_use]
            exact hcache
          exact huse.silent fun _ => rfl
        · have hturn : Traffic (s.past ++ [found hd.address text]) (s.awaited.map Handler.address) := by
            rw [hs]
            exact .turn htraffic (.found hknown)
          exact hturn
      | none => exact ⟨hcache.silent fun _ => rfl, .turn htraffic (.asked hd.address)⟩

/-- **The history is kept up by every move.** -/
theorem Watched.step (h : s.Watched) (m : Move) : (s.step m).Watched := by
  cases m with
  | call => exact h.unseen rfl
  | replace handlers => exact h.unseen rfl
  | clear => exact ⟨.clear s.past _, .turn h.traffic (.cleared _)⟩
  | step i =>
    refine h.unseen ?_
    rw [OpenPage.step]
    split <;> rfl
  | goOn i clock =>
    rw [OnlinePage.step]
    split
    · rename_i hgo
      cases s.page.ahead with
      | nil => exact h
      | cons hd hs => exact Watched.visit (s := s.leave hs) (h.unseen rfl) hgo.2.2 hd rfl
    · exact h
  | receive i answer clock =>
    rw [OnlinePage.step]
    split
    · cases hwaits : s.awaited with
      | none => exact h
      | some hd =>
        have htraffic := h.traffic
        rw [hwaits] at htraffic
        refine ⟨?_, .turn htraffic (.answered hd.address answer clock)⟩
        show (Walk.receive _ _ _ _).cache.Keeps _
        rw [Walk.cache_receive]
        exact h.keeps.take clock hd.address answer
    · exact h
  | comeBack i =>
    rw [OnlinePage.step]
    split
    · refine h.unseen ?_
      rw [OpenPage.step]
      split <;> rfl
    · exact h

theorem Watched.run (h : s.Watched) (ms : List Move) : (s.run ms).Watched := by
  induction ms generalizing s with
  | nil => exact h
  | cons m ms ih => exact ih (h.step m)

/-- **What is found after a clearing was asked for after it.** -/
def ClearingsHold (s : OnlinePage) : Prop :=
  ∀ before between after address content,
    s.past = before ++ cleared :: (between ++ found address content :: after) →
      ∃ sent rest, between = sent ++ asked address :: rest ∧ ComesIn address content rest

/-- **A clearing is outlived at most by what is on its way.** Whoever comes to a page on a slow net, whenever the
net answers and whenever handlers are replaced and the cache is cleared: what is found in the cache after a
clearing was asked for after it and came in since, or it was on its way when the cache was cleared, and it is what
came in first. So what had come in before a clearing is never found after it, and neither is anything else if
nothing was on its way. -/
theorem clearing_outlived_only_in_flight (page : Page) (maxDepth ttl : Nat) (handlers : List Handler)
    (opened : Instant) (ms : List Move) {before between after : List CacheEvent} {address content : String}
    (hpast : ((start page maxDepth ttl handlers opened).run ms).past =
      before ++ cleared :: (between ++ found address content :: after)) :
    (∃ sent rest, between = sent ++ asked address :: rest ∧ ComesIn address content rest) ∨
      OnItsWay address before ∧ ComesIn address content between := by
  have hwatched := (watched_start page maxDepth ttl handlers opened).run ms
  have hpast' : ((start page maxDepth ttl handlers opened).run ms).past =
      (before ++ cleared :: between) ++ found address content :: after := by rw [hpast]; simp
  obtain ⟨sent, rest, hsplit, hrest⟩ := hwatched.traffic.asked_of_found hpast'
  exact asked_since_or_onItsWay hsplit hrest

/-- A page of an empty document, with a handler whose schema is fetched. -/
def fetchingPage : OnlinePage :=
  start (.new "shop.example") 32 60 [⟨"*", "https://rules.example/shop.json"⟩] .epoch

/-- The cache is cleared while a call waits for a schema, and then another call comes. -/
def clearedWaiting : List Move :=
  [.call, .step 0, .step 0, .step 0, .step 0, .step 0, .goOn 0 0,
    .replace [⟨"*", "https://rules.example/shop.json"⟩], .clear, .receive 0 (.reply 200 "[]") 40, .comeBack 0,
    .step 0, .step 0, .step 0, .call, .step 1, .step 1, .step 1, .step 1, .step 1, .goOn 1 50, .comeBack 1, .step 1,
    .step 1, .step 1]

theorem past_clearedWaiting : (fetchingPage.run clearedWaiting).past =
    [asked "https://rules.example/shop.json"] ++ cleared ::
      ([answered "https://rules.example/shop.json" (.reply 200 "[]") 40] ++
        found "https://rules.example/shop.json" "[]" :: []) := by decide +kernel

theorem clearing_outlived_only_in_flight_clearedWaiting :
    ∃ before between after, (fetchingPage.run clearedWaiting).past =
        before ++ cleared :: (between ++ found "https://rules.example/shop.json" "[]" :: after) ∧
      OnItsWay "https://rules.example/shop.json" before ∧
      ComesIn "https://rules.example/shop.json" "[]" between := by
  refine ⟨_, _, _, past_clearedWaiting, ?_⟩
  rcases clearing_outlived_only_in_flight _ 32 60 _ .epoch clearedWaiting past_clearedWaiting with
    ⟨sent, rest, hsince, -⟩ | hway
  · exact absurd hsince (singleton_answered_ne sent rest)
  · exact hway

/-- **A clearing can be outlived**: the schema that a call waits for comes after the cache was cleared, and the next
call finds it. -/
theorem clearing_is_outlived :
    ¬ ∀ page maxDepth ttl handlers opened ms, ((start page maxDepth ttl handlers opened).run ms).ClearingsHold := by
  intro hhold
  obtain ⟨sent, rest, hsince, -⟩ := hhold _ 32 60 _ .epoch clearedWaiting _ _ _ _ _ past_clearedWaiting
  exact singleton_answered_ne sent rest hsince

end OnlinePage

end PageSweep
