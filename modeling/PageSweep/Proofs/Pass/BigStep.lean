import Mathlib.Algebra.Ring.Nat
import PageSweep.Pass.Run

/-!
# A pass as a relation

What a pass should do, said without a run's counts and flags. An operation is carried out after its wait on
a stage: the milliseconds waited so far, and the scene. A chain goes from action to action with a budget for
those that follow, and leaves the list of what was carried out. A list of chains goes one after the other
until a reload was carried out, and leaves one such list for each chain that was begun.

* `Goes.length_le`, `Goes.elapsed`, `Goes.reload_last`, `Goes.head`: what such lists look like.
* `AllGo.heads`, `AllGo.all`: which chains are begun.
* `Composes.along`: what each operation does is what chains do, if it composes.
* `Goes.det`, `AllGo.det`: there is no other way to go.
-/

namespace PageSweep

/-- How far a pass has come. -/
structure Stage where
  elapsed : Nat
  scene : Scene

namespace Stage

def report (t : Stage) (e : Event) : Stage := { t with scene := t.scene.report e }

end Stage

/-- An operation that was carried out, and whether it ended well. -/
structure Deed where
  op : Op
  delay : Nat
  ok : Bool
deriving DecidableEq, Repr

/-- A wait, and the operation after it. An error is logged and does not end well. -/
inductive Op.Does (began : Instant) (op : Op) (delay : Nat) (t : Stage) : Bool → Stage → Prop where
  | ends {ok : Bool} {s : Scene} (h : op.apply (began.later (t.elapsed + delay)) t.scene = (.ok ok, s)) :
      Does began op delay t ok ⟨t.elapsed + delay, s⟩
  | fails {e : Error} {s : Scene}
      (h : op.apply (began.later (t.elapsed + delay)) t.scene = (.error e, s)) :
      Does began op delay t false ⟨t.elapsed + delay, s.report (.actionFailed op.name e)⟩

namespace Chain

/-- **A chain with a budget**, from a stage to a stage, and what was carried out. A reload ends everything;
after any other operation the action follows that its end asks for, as long as the budget allows. -/
inductive Goes (began : Instant) (maxDepth : Nat) : Chain → Nat → Stage → List Deed → Stage → Prop where
  | reload {delay : Nat} {s e : Chain} {b : Nat} {t t' : Stage} {ok : Bool}
      (h : Op.reload.Does began delay t ok t') :
      Goes began maxDepth (.link .reload delay s e) b t [⟨.reload, delay, ok⟩] t'
  | last {op : Op} {delay : Nat} {s e : Chain} {b : Nat} {t t' : Stage} {ok : Bool} (hop : op ≠ .reload)
      (h : op.Does began delay t ok t') (hn : (link op delay s e).next ok = done) :
      Goes began maxDepth (.link op delay s e) b t [⟨op, delay, ok⟩] t'
  | dropped {op : Op} {delay : Nat} {s e : Chain} {t t' : Stage} {ok : Bool} (hop : op ≠ .reload)
      (h : op.Does began delay t ok t') (hn : (link op delay s e).next ok ≠ done) :
      Goes began maxDepth (.link op delay s e) 0 t [⟨op, delay, ok⟩]
        (t'.report (.chainDropped (.chainTooDeep maxDepth)))
  | followed {op : Op} {delay : Nat} {s e : Chain} {b : Nat} {t t' t'' : Stage} {ok : Bool}
      {ds : List Deed} (hop : op ≠ .reload) (h : op.Does began delay t ok t')
      (hn : (link op delay s e).next ok ≠ done)
      (hg : Goes began maxDepth ((link op delay s e).next ok) b t' ds t'') :
      Goes began maxDepth (.link op delay s e) (b + 1) t (⟨op, delay, ok⟩ :: ds) t''

/-- Whether a reload was carried out. -/
def Reloads (ds : List Deed) : Prop := ∃ d ∈ ds, d.op = .reload

/-- **Chains one after the other**, each with the whole budget, until a reload was carried out. -/
inductive AllGo (began : Instant) (maxDepth : Nat) :
    List Chain → Stage → List (List Deed) → Stage → Prop where
  | nil {t : Stage} : AllGo began maxDepth [] t [] t
  | stop {c : Chain} {cs : List Chain} {t t' : Stage} {ds : List Deed}
      (h : c.Goes began maxDepth maxDepth t ds t') (hr : Reloads ds) :
      AllGo began maxDepth (c :: cs) t [ds] t'
  | cons {c : Chain} {cs : List Chain} {t t' t'' : Stage} {ds : List Deed} {dss : List (List Deed)}
      (h : c.Goes began maxDepth maxDepth t ds t') (hr : ¬ Reloads ds)
      (hs : AllGo began maxDepth cs t' dss t'') : AllGo began maxDepth (c :: cs) t (ds :: dss) t''

variable {began : Instant} {maxDepth : Nat}

/-! ### What was carried out -/

/-- The first action of a chain. -/
def head? : Chain → Option (Op × Nat)
  | done => none
  | link op delay _ _ => some (op, delay)

/-- The delays of all actions of a chain. -/
def delays : Chain → List Nat
  | done => []
  | link _ delay s e => delay :: (s.delays ++ e.delays)

theorem delays_next (ok : Bool) (c : Chain) {n : Nat} (h : n ∈ (c.next ok).delays) : n ∈ c.delays := by
  cases c with
  | done => exact h
  | link op delay s e =>
    cases ok with
    | false => exact List.mem_cons_of_mem _ (List.mem_append_right _ h)
    | true => exact List.mem_cons_of_mem _ (List.mem_append_left _ h)

theorem does_elapsed {op : Op} {delay : Nat} {t t' : Stage} {ok : Bool}
    (h : op.Does began delay t ok t') : t'.elapsed = t.elapsed + delay := by
  cases h <;> rfl

variable {c : Chain} {b : Nat} {t t' : Stage} {ds : List Deed}

/-- **A chain carries out one action, and at most as many more as its budget allows.** -/
theorem Goes.length_le (h : c.Goes began maxDepth b t ds t') : ds.length ≤ b + 1 := by
  induction h with
  | reload _ => simp
  | last _ _ _ => simp
  | dropped _ _ _ => simp
  | followed _ _ _ _ ih => simpa using ih

theorem Goes.elapsed (h : c.Goes began maxDepth b t ds t') :
    t'.elapsed = t.elapsed + (ds.map Deed.delay).sum := by
  induction h with
  | reload h => simpa using does_elapsed h
  | last _ h _ => simpa using does_elapsed h
  | dropped _ h _ => simpa [Stage.report] using does_elapsed h
  | followed _ h _ _ ih =>
    rw [ih, does_elapsed h]
    simp only [List.map_cons, List.sum_cons]
    omega

theorem Goes.head (h : c.Goes began maxDepth b t ds t') :
    ds.head?.map (fun d => (d.op, d.delay)) = c.head? := by
  cases h <;> rfl

theorem Goes.ne_nil (h : c.Goes began maxDepth b t ds t') : ds ≠ [] := by
  cases h <;> simp

/-- Only the last operation of a chain can be a reload. -/
theorem Goes.reload_last (h : c.Goes began maxDepth b t ds t') : ∀ d ∈ ds.dropLast, d.op ≠ .reload := by
  induction h with
  | reload _ => simp
  | last _ _ _ => simp
  | dropped _ _ _ => simp
  | followed hop _ _ hg ih =>
    rw [List.dropLast_cons_of_ne_nil hg.ne_nil]
    intro d hd
    rcases List.mem_cons.1 hd with rfl | hd
    · exact hop
    · exact ih d hd

theorem Goes.delays (h : c.Goes began maxDepth b t ds t') : ∀ d ∈ ds, d.delay ∈ c.delays := by
  induction h with
  | reload _ => simp [Chain.delays]
  | last _ _ _ => simp [Chain.delays]
  | dropped _ _ _ => simp [Chain.delays]
  | followed _ _ _ _ ih =>
    intro d hd
    rcases List.mem_cons.1 hd with rfl | hd
    · exact List.mem_cons_self
    · exact delays_next _ _ (ih d hd)

variable {cs : List Chain} {dss : List (List Deed)}

theorem AllGo.length_le (h : AllGo began maxDepth cs t dss t') :
    dss.flatten.length ≤ cs.length * (maxDepth + 1) := by
  induction h with
  | nil => simp
  | stop h _ =>
    have := h.length_le
    simp only [List.flatten_cons, List.flatten_nil, List.append_nil, List.length_cons, Nat.add_mul]
    omega
  | cons h _ _ ih =>
    have := h.length_le
    simp only [List.flatten_cons, List.length_append, List.length_cons, Nat.add_mul]
    omega

theorem AllGo.elapsed (h : AllGo began maxDepth cs t dss t') :
    t'.elapsed = t.elapsed + (dss.flatten.map Deed.delay).sum := by
  induction h with
  | nil => simp
  | stop h _ => simpa using h.elapsed
  | cons h _ _ ih =>
    rw [ih, h.elapsed, List.flatten_cons, List.map_append, List.sum_append]
    omega

/-- **Every chain that is begun is begun once, in its place**, with its first action. -/
theorem AllGo.heads (h : AllGo began maxDepth cs t dss t') :
    dss.map (fun ds => ds.head?.map fun d => (d.op, d.delay)) = (cs.take dss.length).map head? := by
  induction h with
  | nil => rfl
  | stop h _ => simp [h.head]
  | cons h _ _ ih => simp [h.head, ih]

/-- All chains are begun, unless a reload was carried out. -/
theorem AllGo.all (h : AllGo began maxDepth cs t dss t') :
    dss.length = cs.length ∨ Reloads dss.flatten := by
  induction h with
  | nil => exact .inl rfl
  | stop _ hr => exact .inr (by simpa using hr)
  | cons _ _ _ ih =>
    rcases ih with ih | ⟨d, hd, hop⟩
    · exact .inl (by simp [ih])
    · exact .inr ⟨d, by rw [List.flatten_cons]; exact List.mem_append_right _ hd, hop⟩

/-- **A reload is the last operation of all.** -/
theorem AllGo.reload_last (h : AllGo began maxDepth cs t dss t') :
    ∀ d ∈ dss.flatten.dropLast, d.op ≠ .reload := by
  induction h with
  | nil => simp
  | stop h _ => simpa using h.reload_last
  | @cons c cs t t' t'' ds dss h hr _ ih =>
    intro d hd
    by_cases hn : dss.flatten = []
    · rw [List.flatten_cons, hn, List.append_nil] at hd
      exact h.reload_last d hd
    · rw [List.flatten_cons, List.dropLast_append_of_ne_nil hn] at hd
      rcases List.mem_append.1 hd with hd | hd
      · exact fun hop => hr ⟨d, hd, hop⟩
      · exact ih d hd

theorem AllGo.delays (h : AllGo began maxDepth cs t dss t') :
    ∀ d ∈ dss.flatten, ∃ c ∈ cs, d.delay ∈ c.delays := by
  induction h with
  | nil => simp
  | @stop c cs _ _ _ h _ =>
    intro d hd
    exact ⟨c, List.mem_cons_self, h.delays d (by simpa using hd)⟩
  | @cons c cs _ _ _ _ _ h _ _ ih =>
    intro d hd
    rw [List.flatten_cons] at hd
    rcases List.mem_append.1 hd with hd | hd
    · exact ⟨c, List.mem_cons_self, h.delays d hd⟩
    · obtain ⟨c', hc', hd'⟩ := ih d hd
      exact ⟨c', List.mem_cons_of_mem _ hc', hd'⟩

/-! ### What composes -/

/-- **What composes along operations**: a relation between scenes with the operations in between, which does
not depend on the log. -/
structure Composes (began : Instant) (R : List Op → Scene → Scene → Prop) : Prop where
  refl : ∀ s, R [] s s
  trans : ∀ {ops ops' : List Op} {s t u : Scene}, R ops s t → R ops' t u → R (ops ++ ops') s u
  apply : ∀ (op : Op) (ms : Nat) (s : Scene), R [op] s (op.apply (began.later ms) s).2
  report : ∀ {ops : List Op} {s t : Scene} (e : Event), R ops s t → R ops s (t.report e)

namespace Composes

variable {R : List Op → Scene → Scene → Prop}

theorem does (hR : Composes began R) {op : Op} {delay : Nat} {ok : Bool} (h : op.Does began delay t ok t') :
    R [op] t.scene t'.scene := by
  have happly := hR.apply op (t.elapsed + delay) t.scene
  cases h with
  | ends h =>
    rw [h] at happly
    exact happly
  | fails h =>
    rw [h] at happly
    exact hR.report _ happly

theorem goes (hR : Composes began R) (h : c.Goes began maxDepth b t ds t') :
    R (ds.map Deed.op) t.scene t'.scene := by
  induction h with
  | reload h => exact hR.does h
  | last _ h _ => exact hR.does h
  | dropped _ h _ => exact hR.report _ (hR.does h)
  | followed _ h _ _ ih => exact hR.trans (hR.does h) ih

/-- **What composes along operations is what chains do.** -/
theorem along (hR : Composes began R) (h : AllGo began maxDepth cs t dss t') :
    R (dss.flatten.map Deed.op) t.scene t'.scene := by
  induction h with
  | nil => exact hR.refl _
  | stop h _ =>
    rw [List.flatten_cons, List.flatten_nil, List.append_nil]
    exact hR.goes h
  | cons h _ _ ih =>
    rw [List.flatten_cons, List.map_append]
    exact hR.trans (hR.goes h) ih

end Composes

/-! ### There is one way to go -/

theorem does_det {op : Op} {delay : Nat} {t t₁ t₂ : Stage} {ok₁ ok₂ : Bool}
    (h₁ : op.Does began delay t ok₁ t₁) (h₂ : op.Does began delay t ok₂ t₂) : ok₁ = ok₂ ∧ t₁ = t₂ := by
  cases h₁ with
  | ends h₁ => cases h₂ with
    | ends h₂ => rw [h₁] at h₂; cases h₂; exact ⟨rfl, rfl⟩
    | fails h₂ => rw [h₁] at h₂; cases h₂
  | fails h₁ => cases h₂ with
    | ends h₂ => rw [h₁] at h₂; cases h₂
    | fails h₂ => rw [h₁] at h₂; cases h₂; exact ⟨rfl, rfl⟩

theorem Goes.det {ds₁ ds₂ : List Deed} {t₁ t₂ : Stage} (h₁ : c.Goes began maxDepth b t ds₁ t₁)
    (h₂ : c.Goes began maxDepth b t ds₂ t₂) : ds₁ = ds₂ ∧ t₁ = t₂ := by
  induction h₁ generalizing ds₂ t₂ with
  | reload h =>
    cases h₂ with
    | reload h' => obtain ⟨rfl, rfl⟩ := does_det h h'; exact ⟨rfl, rfl⟩
    | last hop _ _ => exact absurd rfl hop
    | dropped hop _ _ => exact absurd rfl hop
    | followed hop _ _ _ => exact absurd rfl hop
  | last hop h hn =>
    cases h₂ with
    | reload _ => exact absurd rfl hop
    | last _ h' _ => obtain ⟨rfl, rfl⟩ := does_det h h'; exact ⟨rfl, rfl⟩
    | dropped _ h' hn' => obtain ⟨rfl, rfl⟩ := does_det h h'; exact absurd hn hn'
    | followed _ h' hn' _ => obtain ⟨rfl, rfl⟩ := does_det h h'; exact absurd hn hn'
  | dropped hop h hn =>
    cases h₂ with
    | reload _ => exact absurd rfl hop
    | last _ h' hn' => obtain ⟨rfl, rfl⟩ := does_det h h'; exact absurd hn' hn
    | dropped _ h' _ => obtain ⟨rfl, rfl⟩ := does_det h h'; exact ⟨rfl, rfl⟩
  | followed hop h hn _ ih =>
    cases h₂ with
    | reload _ => exact absurd rfl hop
    | last _ h' hn' => obtain ⟨rfl, rfl⟩ := does_det h h'; exact absurd hn' hn
    | followed _ h' _ hg' =>
      obtain ⟨rfl, rfl⟩ := does_det h h'
      obtain ⟨rfl, rfl⟩ := ih hg'
      exact ⟨rfl, rfl⟩

/-- **Chains go in one way only.** -/
theorem AllGo.det {dss₁ dss₂ : List (List Deed)} {t₁ t₂ : Stage}
    (h₁ : AllGo began maxDepth cs t dss₁ t₁) (h₂ : AllGo began maxDepth cs t dss₂ t₂) :
    dss₁ = dss₂ ∧ t₁ = t₂ := by
  induction h₁ generalizing dss₂ t₂ with
  | nil => cases h₂; exact ⟨rfl, rfl⟩
  | stop h hr =>
    cases h₂ with
    | stop h' _ => obtain ⟨rfl, rfl⟩ := h.det h'; exact ⟨rfl, rfl⟩
    | cons h' hr' _ => obtain ⟨rfl, rfl⟩ := h.det h'; exact absurd hr hr'
  | cons h hr _ ih =>
    cases h₂ with
    | stop h' hr' => obtain ⟨rfl, rfl⟩ := h.det h'; exact absurd hr' hr
    | cons h' _ hs' =>
      obtain ⟨rfl, rfl⟩ := h.det h'
      obtain ⟨rfl, rfl⟩ := ih hs'
      exact ⟨rfl, rfl⟩

end Chain

end PageSweep
