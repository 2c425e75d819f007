import Mathlib.Tactic.Common
import PageSweep.Visit.Timeline

/-!
# Crowds at the gate

Any number of parties share a gate: calls that ask for walks, and borrowers who want to look at the page.
They come when they like and take their steps in any order; in between, the handlers may be replaced. A
crowd is the gate, the handlers, the parties by number and the walks that were begun so far.

A walk lasts from the step that reads the handlers to the move that brings its walker back. What it finds
is left open, and so is how often it lingers on the way: a step of a party on a walk changes nothing.

* `Change.of_step`: what one move can do to a crowd of callers, one case for each kind of step.
* `Change.onlyCallers`: it stays a crowd of callers.
-/

namespace PageSweep

variable {ρ : Type}

/-- Someone who comes to the gate. -/
inductive Party (ρ : Type) where
  | caller (c : Call ρ)
  | borrower (b : Borrow)
deriving DecidableEq, Repr

/-- A walk that was begun: by whom, through which handlers, and what it found once it is over. -/
structure Outing (ρ : Type) where
  walker : Nat
  handlers : List Handler
  found : Option (List ρ)
deriving DecidableEq, Repr

/-- What can happen next. -/
inductive Move (ρ : Type) where
  /-- A call comes. -/
  | call
  /-- A borrower comes. -/
  | borrow
  | reset (handlers : List Handler)
  /-- The party of a number takes its next step. -/
  | step (i : Nat)
  /-- The walk of the party of a number is over. -/
  | comeBack (i : Nat) (found : List ρ)
deriving DecidableEq, Repr

structure Crowd (ρ : Type) where
  gate : Gate
  handlers : List Handler
  parties : List (Party ρ)
  /-- In the order in which they began. -/
  walks : List (Outing ρ)
deriving DecidableEq, Repr

namespace Phase

/-- Whether a call has asked and is not back yet. -/
def isActive : Phase → Bool
  | .ask | .returned => false
  | _ => true

/-- Whether a call holds the lock. -/
def isInside : Phase → Bool
  | .claim | .setOut | .walk | .leave => true
  | _ => false

end Phase

namespace Party

def isActive : Party ρ → Bool
  | .caller c => c.phase.isActive
  | .borrower b => b = .wait

/-- What a party has to report. -/
def reports : Party ρ → List ρ
  | .caller c => c.reports.getD []
  | .borrower _ => []

end Party

namespace Outing

/-- The outing after a party has come back: its own is over, if it was under way. -/
def close (i : Nat) (found : List ρ) (w : Outing ρ) : Outing ρ :=
  if w.walker = i ∧ w.found = none then { w with found := some found } else w

/-- What was found so far. -/
def reports (w : Outing ρ) : List ρ := w.found.getD []

@[simp] theorem close_walker (i : Nat) (found : List ρ) (w : Outing ρ) :
    (w.close i found).walker = w.walker := by
  unfold close; split <;> rfl

theorem close_of_ne {i : Nat} {found : List ρ} {w : Outing ρ} (h : w.walker ≠ i) :
    w.close i found = w := if_neg fun h' => h h'.1

theorem close_of_over {i : Nat} {found : List ρ} {w : Outing ρ} (h : w.found.isSome) :
    w.close i found = w := if_neg fun h' => by simp [h'.2] at h

end Outing

namespace Crowd

def start (handlers : List Handler) : Crowd ρ := ⟨.idle, handlers, [], []⟩

/-- The call of a number. -/
def call? (s : Crowd ρ) (i : Nat) : Option (Call ρ) :=
  match s.parties[i]? with
  | some (.caller c) => some c
  | _ => none

/-- The crowd with the call of a number changed, at a gate. -/
def put (s : Crowd ρ) (g : Gate) (i : Nat) (c : Call ρ) : Crowd ρ :=
  { s with gate := g, parties := s.parties.set i (.caller c) }

/-- The crowd with one walk more, through the handlers as they are now. -/
def begin_ (s : Crowd ρ) (i : Nat) : Crowd ρ := { s with walks := s.walks ++ [⟨i, s.handlers, none⟩] }

/-- The step of a call. -/
def stepCall (s : Crowd ρ) (i : Nat) (c : Call ρ) : Crowd ρ :=
  if c.phase = .setOut then (s.begin_ i).put s.gate i c.setOut
  else s.put (c.step i s.gate).1 i (c.step i s.gate).2

/-- A call comes back from its walk. -/
def finish (s : Crowd ρ) (i : Nat) (c : Call ρ) (found : List ρ) : Crowd ρ :=
  { s.put s.gate i (c.comeBack found) with walks := s.walks.map (·.close i found) }

/-- One move. A move that is not possible changes nothing. -/
def step (s : Crowd ρ) : Move ρ → Crowd ρ
  | .call => { s with parties := s.parties ++ [.caller .new] }
  | .borrow => { s with parties := s.parties ++ [.borrower .request] }
  | .reset handlers => { s with handlers := handlers }
  | .step i =>
    match s.parties[i]? with
    | none => s
    | some (.caller c) => s.stepCall i c
    | some (.borrower b) =>
      { s with gate := (b.step i s.gate).1, parties := s.parties.set i (.borrower (b.step i s.gate).2) }
  | .comeBack i found =>
    match s.call? i with
    | none => s
    | some c => if c.phase = .walk then s.finish i c found else s

@[simp] theorem put_gate (s : Crowd ρ) (g : Gate) (i : Nat) (c : Call ρ) : (s.put g i c).gate = g := rfl

def run (s : Crowd ρ) (ms : List (Move ρ)) : Crowd ρ := ms.foldl step s

/-- Nobody who has begun is still to come back. -/
def Quiet (s : Crowd ρ) : Prop := ∀ p ∈ s.parties, p.isActive = false

instance (s : Crowd ρ) : Decidable s.Quiet := inferInstanceAs (Decidable (∀ p ∈ s.parties, _))

/-- Nobody but callers is there. -/
def OnlyCallers (s : Crowd ρ) : Prop := ∀ p ∈ s.parties, ∃ c, p = .caller c

/-- The walks of the party of a number. -/
def walksOf (s : Crowd ρ) (i : Nat) : List (Outing ρ) := s.walks.filter (·.walker = i)

/-! ### The calls of a crowd -/

theorem call?_eq_some {s : Crowd ρ} {i : Nat} {c : Call ρ} :
    s.call? i = some c ↔ s.parties[i]? = some (.caller c) := by
  unfold call?
  split
  · rename_i h; rw [h]; simp
  · rename_i h
    constructor
    · intro h'; exact absurd h' (by simp)
    · intro h'; exact absurd h' (h c)

theorem call?_put {s : Crowd ρ} {i : Nat} {c : Call ρ} (h : s.call? i = some c) (g : Gate) (d : Call ρ)
    (j : Nat) : (s.put g i d).call? j = if j = i then some d else s.call? j := by
  have hi : i < s.parties.length := (List.getElem?_eq_some_iff.1 (call?_eq_some.1 h)).1
  unfold call? put
  by_cases hj : j = i
  · subst hj; simp [hi]
  · simp [List.getElem?_set_ne (Ne.symm hj), hj]

theorem call?_append (s : Crowd ρ) (j : Nat) :
    ({ s with parties := s.parties ++ [.caller .new] } : Crowd ρ).call? j =
      if j = s.parties.length then some .new else s.call? j := by
  unfold call?
  by_cases hj : j = s.parties.length
  · subst hj; simp
  · rw [if_neg hj]
    rcases Nat.lt_or_ge j s.parties.length with h | h
    · simp only [List.getElem?_append_left h]
    · rw [List.getElem?_eq_none (by simp; omega), List.getElem?_eq_none h]

theorem Quiet.call {s : Crowd ρ} (hq : s.Quiet) {i : Nat} {c : Call ρ} (h : s.call? i = some c) :
    c.phase.isActive = false := hq _ (List.mem_of_getElem? (call?_eq_some.1 h))

theorem lt_of_call? {s : Crowd ρ} {i : Nat} {c : Call ρ} (h : s.call? i = some c) :
    i < s.parties.length := (List.getElem?_eq_some_iff.1 (call?_eq_some.1 h)).1

/-! ### What a move can do -/

/-- What one move can do to a crowd of callers. -/
inductive Change (s : Crowd ρ) : Crowd ρ → Prop where
  | same : Change s s
  | call : Change s { s with parties := s.parties ++ [.caller .new] }
  | reset (handlers : List Handler) : Change s { s with handlers := handlers }
  | ask {i : Nat} {c : Call ρ} (h : s.call? i = some c) (hp : c.phase = .ask) :
      Change s (s.put { s.gate with pending := true } i { c with phase := .look })
  | lookUp {i : Nat} {c : Call ρ} (h : s.call? i = some c) (hp : c.phase = .look)
      (hg : s.gate.pending = true) : Change s (s.put s.gate i { c with phase := .enter })
  | lookIdle {i : Nat} {c : Call ρ} (h : s.call? i = some c) (hp : c.phase = .look)
      (hg : s.gate.pending = false) : Change s (s.put s.gate i { c with phase := .returned })
  | enter {i : Nat} {c : Call ρ} (h : s.call? i = some c) (hp : c.phase = .enter)
      (hg : s.gate.holder = none) :
      Change s (s.put { s.gate with holder := some i } i ⟨.claim, some (c.reports.getD [])⟩)
  | giveUp {i : Nat} {c : Call ρ} (h : s.call? i = some c) (hp : c.phase = .enter)
      (hg : s.gate.holder.isSome) : Change s (s.put s.gate i { c with phase := .returned })
  | claim {i : Nat} {c : Call ρ} (h : s.call? i = some c) (hp : c.phase = .claim)
      (hg : s.gate.pending = true) :
      Change s (s.put { s.gate with pending := false } i { c with phase := .setOut })
  | claimNone {i : Nat} {c : Call ρ} (h : s.call? i = some c) (hp : c.phase = .claim)
      (hg : s.gate.pending = false) : Change s (s.put s.gate i { c with phase := .leave })
  | setOut {i : Nat} {c : Call ρ} (h : s.call? i = some c) (hp : c.phase = .setOut) :
      Change s ((s.begin_ i).put s.gate i { c with phase := .walk })
  | comeBack {i : Nat} {c : Call ρ} (h : s.call? i = some c) (hp : c.phase = .walk)
      (found : List ρ) : Change s (s.finish i c found)
  | leave {i : Nat} {c : Call ρ} (h : s.call? i = some c) (hp : c.phase = .leave) :
      Change s (s.put s.gate.release i { c with phase := .look })

/-- A step that changes nothing of a call leaves the crowd as it is. -/
theorem put_self {s : Crowd ρ} {i : Nat} {c : Call ρ} (h : s.call? i = some c) :
    s.put s.gate i c = s := by
  have h' := call?_eq_some.1 h
  have hi : i < s.parties.length := lt_of_call? h
  have : s.parties.set i (.caller c) = s.parties := by
    rw [List.getElem?_eq_getElem hi, Option.some.injEq] at h'
    rw [← h', List.set_getElem_self]
  unfold put; rw [this]

theorem Change.of_stepCall {s : Crowd ρ} {i : Nat} {c : Call ρ} (h : s.call? i = some c) :
    Change s (s.stepCall i c) := by
  obtain ⟨phase, reports⟩ := c
  unfold stepCall
  cases phase with
  | ask => exact .ask h rfl
  | look =>
    cases hg : s.gate.pending with
    | true => simpa [Call.step, hg] using Change.lookUp h rfl hg
    | false => simpa [Call.step, hg] using Change.lookIdle h rfl hg
  | enter =>
    cases hg : s.gate.holder with
    | none => simpa [Call.step, hg] using Change.enter h rfl hg
    | some j => simpa [Call.step, hg] using Change.giveUp h rfl (by simp [hg])
  | claim =>
    cases hg : s.gate.pending with
    | true => simpa [Call.step, hg] using Change.claim h rfl hg
    | false => simpa [Call.step, hg] using Change.claimNone h rfl hg
  | setOut => exact .setOut h rfl
  | walk => simpa [Call.step, put_self h] using Change.same
  | leave => exact .leave h rfl
  | returned => simpa [Call.step, put_self h] using Change.same

/-- **What one move can do to a crowd of callers.** -/
theorem Change.of_step {s : Crowd ρ} (hs : s.OnlyCallers) {m : Move ρ} (hm : m ≠ .borrow) :
    Change s (s.step m) := by
  cases m with
  | call => exact .call
  | borrow => exact absurd rfl hm
  | reset handlers => exact .reset handlers
  | step i =>
    simp only [step]
    split
    · exact .same
    · rename_i c hc; exact .of_stepCall (call?_eq_some.2 hc)
    · rename_i b hb
      obtain ⟨c, hc⟩ := hs _ (List.mem_of_getElem? hb)
      exact absurd hc (by simp)
  | comeBack i found =>
    simp only [step]
    split
    · exact .same
    · rename_i c hc
      split
      · rename_i hp; exact .comeBack hc hp found
      · exact .same

theorem onlyCallers_put {s : Crowd ρ} (hs : s.OnlyCallers) (g : Gate) (i : Nat) (c : Call ρ) :
    (s.put g i c).OnlyCallers := by
  intro p hp
  rcases List.mem_or_eq_of_mem_set hp with h | h
  · exact hs p h
  · exact ⟨c, h⟩

theorem Change.onlyCallers {s s' : Crowd ρ} (h : Change s s') (hs : s.OnlyCallers) : s'.OnlyCallers := by
  cases h with
  | same => exact hs
  | call =>
    intro p hp
    rcases List.mem_append.1 hp with h | h
    · exact hs p h
    · exact ⟨.new, List.mem_singleton.1 h⟩
  | reset _ => exact hs
  | setOut _ _ => exact onlyCallers_put hs s.gate _ _
  | comeBack _ _ _ => exact onlyCallers_put hs s.gate _ _
  | _ => exact onlyCallers_put hs _ _ _

end Crowd

end PageSweep
