import Mathlib.Data.List.Induction
import PageSweep.Proofs.Remote.History

/-!
# One request at a time

Who waits for an answer asks for nothing else meanwhile, so of all that happens around a cache only a clearing can
come between a request and its answer. What is found in the cache came in with an answer, and the request for that
stands right before it, clearings apart.

* `Traffic.onItsWay`: what is on its way was asked for last.
* `Traffic.asked_of_found`: where what is found in the cache came from.
* `asked_since_or_onItsWay`: a clearing lies before the request for what is known later, or it came while that was
  on its way.
-/

namespace PageSweep

open CacheEvent

/-- What can happen next around a cache with this past, if this address or nothing is on its way: what is found is
known, and only one request is on its way at a time. -/
inductive Turn (past : List CacheEvent) : Option String → CacheEvent → Option String → Prop where
  | cleared (away : Option String) : Turn past away cleared away
  | found {address content : String} {time : Nat} (hknown : latest? address past = some ⟨content, time⟩) :
      Turn past none (found address content) none
  | asked (address : String) : Turn past none (asked address) (some address)
  | answered (address : String) (answer : Answer) (time : Nat) :
      Turn past (some address) (answered address answer time) none

/-- **What happens around a cache when one walks**, and what is on its way in the end. -/
inductive Traffic : List CacheEvent → Option String → Prop where
  | quiet : Traffic [] none
  | turn {past : List CacheEvent} {away away' : Option String} {e : CacheEvent} (h : Traffic past away)
      (he : Turn past away e away') : Traffic (past ++ [e]) away'

/-- An address was asked for, and nothing happened since but clearings. -/
def OnItsWay (address : String) (past : List CacheEvent) : Prop :=
  ∃ sent waiting, past = sent ++ asked address :: waiting ∧ ∀ e ∈ waiting, e = cleared

/-- The first thing that happens but clearings is that an answer for an address comes, and what it carries is what
is known of the address in the end. -/
def ComesIn (address content : String) (later : List CacheEvent) : Prop :=
  ∃ waiting answer time rest, later = waiting ++ answered address answer time :: rest ∧
    (∀ e ∈ waiting, e = cleared) ∧ answer.content? = some content ∧ ∀ e ∈ rest, e.lesson? address = none

namespace Traffic

variable {past before after later : List CacheEvent} {away : Option String} {e : CacheEvent}
  {address content : String}

theorem last (h : Traffic (past ++ [e]) away) : ∃ away', Traffic past away' ∧ Turn past away' e away := by
  generalize hq : past ++ [e] = q at h
  cases h with
  | quiet => exact absurd hq (by simp)
  | turn h he =>
    obtain ⟨rfl, he'⟩ := List.append_inj' hq rfl
    rw [List.singleton_inj.1 he']
    exact ⟨_, h, he⟩

/-- What happened up to a moment. -/
theorem init (h : Traffic (before ++ later) away) : ∃ away', Traffic before away' := by
  induction later using List.reverseRecOn generalizing away with
  | nil =>
    rw [List.append_nil] at h
    exact ⟨away, h⟩
  | append_singleton later e ih =>
    rw [← List.append_assoc] at h
    obtain ⟨away', h', -⟩ := h.last
    exact ih h'

/-- What is on its way was asked for, and nothing happened since but clearings. -/
theorem onItsWay (h : Traffic past (some address)) : OnItsWay address past := by
  generalize haway : some address = away at h
  induction h with
  | quiet => cases haway
  | @turn past _ _ e h he ih =>
    cases he with
    | cleared away =>
      obtain ⟨sent, waiting, rfl, hwaiting⟩ := ih haway
      refine ⟨sent, waiting ++ [cleared], by simp, ?_⟩
      intro e he
      rcases List.mem_append.1 he with he | he
      · exact hwaiting e he
      · exact List.mem_singleton.1 he
    | found hknown => cases haway
    | asked a =>
      cases haway
      exact ⟨past, [], rfl, fun _ he => absurd he List.not_mem_nil⟩
    | answered a answer time => cases haway

/-- **What is found in the cache was asked for**, and came in. -/
theorem asked_of_found (h : Traffic past away) (hpast : past = before ++ found address content :: after) :
    ∃ sent rest, before = sent ++ asked address :: rest ∧ ComesIn address content rest := by
  have happend : past = before ++ [found address content] ++ after := by rw [hpast]; simp
  obtain ⟨_, hprefix⟩ := (happend ▸ h).init
  obtain ⟨_, hbefore, hturn⟩ := hprefix.last
  cases hturn with
  | @found _ _ time hknown =>
    -- What is known came with an answer, and when that came its request was the one on its way.
    obtain ⟨first, answer, rest, rfl, hcontent, hrest⟩ := latest?_eq_some_iff.1 hknown
    have happend' : first ++ answered address answer time :: rest =
        first ++ [answered address answer time] ++ rest := by simp
    obtain ⟨_, hprefix'⟩ := (happend' ▸ hbefore).init
    obtain ⟨_, hfirst, hturn'⟩ := hprefix'.last
    cases hturn' with
    | answered =>
      obtain ⟨sent, waiting, rfl, hwaiting⟩ := hfirst.onItsWay
      exact ⟨sent, waiting ++ answered address answer time :: rest, by simp, waiting, answer, time, rest, rfl,
        hwaiting, hcontent, hrest⟩

end Traffic

/-- Where an answer is all that happened, nothing was asked for. -/
theorem singleton_answered_ne {a b : String} {answer : Answer} {time : Nat} (sent rest : List CacheEvent) :
    [answered a answer time] ≠ sent ++ asked b :: rest := by
  intro h
  have hasked : asked b ∈ [answered a answer time] := by
    rw [h]
    simp
  cases List.mem_singleton.1 hasked

/-- A clearing before the end lies before the request for what is known in the end, or it came while that was on
its way. -/
theorem asked_since_or_onItsWay {before between sent rest : List CacheEvent} {address content : String}
    (hsplit : before ++ cleared :: between = sent ++ asked address :: rest)
    (hrest : ComesIn address content rest) :
    (∃ sent rest, between = sent ++ asked address :: rest ∧ ComesIn address content rest) ∨
      OnItsWay address before ∧ ComesIn address content between := by
  -- The clearing lies before the request or behind it; if behind, then before the answer, since nothing after the
  -- answer says anything of the address.
  rcases List.append_eq_append_iff.1 hsplit with ⟨since, hsent, hbetween⟩ | ⟨waited, hbefore, hrest'⟩
  · cases since with
    | nil => cases hbetween
    | cons e since =>
      rw [List.cons_append, List.cons.injEq] at hbetween
      exact .inl ⟨since, rest, hbetween.2, hrest⟩
  · cases waited with
    | nil => cases hrest'
    | cons e first =>
      rw [List.cons_append, List.cons.injEq] at hrest'
      obtain ⟨rfl, hrest'⟩ := hrest'
      obtain ⟨waiting, answer, time, tail, rfl, hwaiting, hcontent, htail⟩ := hrest
      rcases List.append_eq_append_iff.1 hrest' with ⟨since, hfirst, hbetween⟩ | ⟨since, hwait, hbetween⟩
      · cases since with
        | nil => cases hbetween
        | cons e since =>
          rw [List.cons_append, List.cons.injEq] at hbetween
          have hcleared := htail cleared (by rw [hbetween.2]; simp)
          cases hcleared
      · cases since with
        | nil => cases hbetween
        | cons e since =>
          rw [List.cons_append, List.cons.injEq] at hbetween
          obtain ⟨rfl, hbetween⟩ := hbetween
          refine .inr ⟨⟨sent, first, hbefore, fun e he => hwaiting e ?_⟩, since, answer, time, tail, hbetween,
            fun e he => hwaiting e ?_, hcontent, htail⟩
          · rw [hwait]
            exact List.mem_append_left _ he
          · rw [hwait]
            exact List.mem_append_right _ (List.mem_cons_of_mem _ he)

end PageSweep
