import PageSweep.Proofs.Number.Numeral
import PageSweep.Proofs.Pass.BigStep

/-!
# A pass goes as it should

Runs against the relation of `BigStep`: a run keeps counts and a flag as it goes, and in the end those are
the counts of what was carried out.

* `goes_run`, `allGo_runAll`: a run goes the way of the relation.
* `delayOf_of_asksFor`, `delayOf_eq_zero`: for how long an action waits.
* `delays_ofJson`: no action waits for longer than the longest delay.
* `Sweeper.run_ends`: how a pass ends.
* `pass_agrees`: a pass of any schema on any page.
-/

namespace PageSweep

open Number Text

/-- How far a run has come. -/
def Run.stage (r : Run) : Stage := ⟨r.elapsed, r.scene⟩

/-- The counts and the flag of a run after some more operations. -/
structure Run.Counts (r : Run) (ds : List Deed) (r' : Run) : Prop where
  executed : r'.executed = r.executed + ds.length
  failed : r'.failed = r.failed + ds.countP (!·.ok)
  halted : r'.halted = true ↔ Chain.Reloads ds

theorem Run.wait_stage (r : Run) (ms : Nat) : (r.wait ms).stage = ⟨r.elapsed + ms, r.scene⟩ := by
  unfold Run.wait Run.stage
  split
  · rename_i h; simp [h]
  · rfl

theorem Run.wait_counts (r : Run) (ms : Nat) :
    (r.wait ms).executed = r.executed ∧ (r.wait ms).failed = r.failed := by
  unfold Run.wait
  split <;> exact ⟨rfl, rfl⟩

theorem Op.halts_iff (op : Op) : op.halts = true ↔ op = .reload := by
  cases op <;> simp [Op.halts]

/-- What a run does for one action is a wait and the operation. -/
theorem perform_does (began : Instant) (op : Op) (delay : Nat) (r : Run) :
    op.Does began delay r.stage ((r.wait delay).perform began op).1
      ((r.wait delay).perform began op).2.stage := by
  have hs := r.wait_stage delay
  simp only [Run.stage, Stage.mk.injEq] at hs
  obtain ⟨hel, hsc⟩ := hs
  unfold Run.perform Run.stage
  rw [hel, hsc]
  cases h : op.apply (began.later (r.elapsed + delay)) r.scene with
  | mk result s =>
    cases result with
    | ok ok => exact .ends h
    | error e => exact .fails h

theorem perform_counts (began : Instant) (op : Op) (delay : Nat) (r : Run) :
    r.Counts [⟨op, delay, ((r.wait delay).perform began op).1⟩] ((r.wait delay).perform began op).2 := by
  obtain ⟨he, hf⟩ := r.wait_counts delay
  refine ⟨?_, ?_, ?_⟩
  · rw [Run.perform_executed, he]; rfl
  · rw [Run.perform_failed, hf]
    cases ((r.wait delay).perform began op).1 <;> simp
  · show op.halts = true ↔ _
    rw [op.halts_iff]
    simp [Chain.Reloads]

/-- Counting goes on where it was. -/
theorem Run.Counts.cons {r r' r'' : Run} {d : Deed} {ds : List Deed} (h : r.Counts [d] r')
    (h' : r'.Counts ds r'') (hd : d.op ≠ .reload) : r.Counts (d :: ds) r'' := by
  refine ⟨?_, ?_, ?_⟩
  · rw [h'.executed, h.executed]
    simp only [List.length_cons, List.length_nil]
    omega
  · rw [h'.failed, h.failed, List.countP_cons, List.countP_cons, List.countP_nil]
    omega
  · rw [h'.halted]
    simp [Chain.Reloads, hd]

namespace Chain

variable {began : Instant} {maxDepth : Nat}

/-- **A run goes along a chain as the relation says**, and counts what it carries out. -/
theorem goes_run (began : Instant) (maxDepth : Nat) (c : Chain) (hc : c ≠ done) (b : Nat) (r : Run) :
    ∃ ds, c.Goes began maxDepth b r.stage ds (c.run began maxDepth b r).stage ∧
      r.Counts ds (c.run began maxDepth b r) := by
  induction c generalizing b r with
  | done => exact absurd rfl hc
  | link op delay s e ihs ihe =>
    have hdoes := perform_does began op delay r
    have hcount := perform_counts began op delay r
    rw [Chain.run]
    generalize hp : (r.wait delay).perform began op = p at hdoes hcount
    obtain ⟨ok, r'⟩ := p
    simp only at hdoes hcount ⊢
    have hhalt : r'.halted = true ↔ op = .reload := by
      rw [hcount.halted]; simp [Reloads]
    by_cases hop : op = .reload
    · subst hop
      rw [if_pos (hhalt.2 rfl)]
      exact ⟨_, .reload hdoes, hcount⟩
    rw [if_neg fun h => hop (hhalt.1 h)]
    have hnext : (link op delay s e).next ok = if ok then s else e := rfl
    by_cases hn : (link op delay s e).next ok = done
    · rw [if_pos (by rw [← hnext, hn]; rfl)]
      exact ⟨_, .last hop hdoes hn, hcount⟩
    have hlink : ¬ (if ok = true then s else e).isDone = true := by
      rw [← hnext]
      revert hn
      cases (link op delay s e).next ok <;> simp [isDone]
    rw [if_neg hlink]
    cases b with
    | zero => exact ⟨_, .dropped hop hdoes hn, hcount.executed, hcount.failed, hcount.halted⟩
    | succ b =>
      -- The action that follows is run with one less.
      have hrest : ∃ ds, ((link op delay s e).next ok).Goes began maxDepth b r'.stage ds
          (((link op delay s e).next ok).run began maxDepth b r').stage ∧
          r'.Counts ds (((link op delay s e).next ok).run began maxDepth b r') := by
        cases ok with
        | false => exact ihe hn b r'
        | true => exact ihs hn b r'
      obtain ⟨ds, hg, hc'⟩ := hrest
      have hrun : (if ok = true then s.run began maxDepth (b + 1 - 1) r'
          else e.run began maxDepth (b + 1 - 1) r') =
          ((link op delay s e).next ok).run began maxDepth b r' := by cases ok <;> rfl
      rw [if_neg (Nat.succ_ne_zero b), hrun]
      exact ⟨_, .followed hop hdoes hn hg, hcount.cons hc' hop⟩

theorem runAll_of_halted (cs : List Chain) {r : Run} (h : r.halted = true) :
    runAll began maxDepth cs r = r := by
  cases cs with
  | nil => rfl
  | cons c cs => rw [runAll, if_pos h]

/-- **A run goes along chains as the relation says.** -/
theorem allGo_runAll (began : Instant) (maxDepth : Nat) (cs : List Chain) (hcs : ∀ c ∈ cs, c ≠ done)
    (r : Run) (hr : r.halted = false) :
    ∃ dss, AllGo began maxDepth cs r.stage dss (runAll began maxDepth cs r).stage ∧
      r.Counts dss.flatten (runAll began maxDepth cs r) := by
  induction cs generalizing r with
  | nil => exact ⟨[], .nil, rfl, rfl, by simp [runAll, hr, Reloads]⟩
  | cons c cs ih =>
    rw [runAll, if_neg (by simp [hr])]
    obtain ⟨ds, hg, hc⟩ := goes_run began maxDepth c (hcs c List.mem_cons_self)
      maxDepth r
    by_cases hrel : Reloads ds
    · rw [runAll_of_halted cs (hc.halted.2 hrel)]
      exact ⟨[ds], .stop hg hrel, by simpa using hc⟩
    · have hr' : (c.run began maxDepth maxDepth r).halted = false := by
        rw [← Bool.not_eq_true]
        exact fun h => hrel (hc.halted.1 h)
      obtain ⟨dss, hg', hc'⟩ := ih (fun c' h => hcs c' (List.mem_cons_of_mem _ h)) _ hr'
      refine ⟨ds :: dss, .cons hg hrel hg', ?_, ?_, ?_⟩
      · rw [hc'.executed, hc.executed, List.flatten_cons, List.length_append]
        omega
      · rw [hc'.failed, hc.failed, List.flatten_cons, List.countP_append]
        omega
      · rw [hc'.halted]
        constructor
        · rintro ⟨d, hd, hop⟩
          exact ⟨d, List.mem_append_right _ hd, hop⟩
        · rintro ⟨d, hd, hop⟩
          rcases List.mem_append.1 hd with hd | hd
          · exact absurd ⟨d, hd, hop⟩ hrel
          · exact ⟨d, hd, hop⟩

/-! ### The chains of a schema -/

theorem ofJson_ne_done (v : Json) : ofJson v ≠ done := by
  cases v <;> simp [ofJson]

theorem delayOf_le (fields : JsonFields) : delayOf fields ≤ maxDelay := Nat.min_le_right _ _

/-- **A value asks for a delay** of so many milliseconds: a number that is not negative, one that is positive but not
whole with its whole part, or the text of a count, perhaps with blanks around it. -/
inductive AsksFor : Json → Nat → Prop where
  | whole (n : Nat) : AsksFor (.int n) n
  | part {x : Binary64} (hx : x.isPositive = true) : AsksFor (.double x) x.floor
  | text {s : String} {n : Nat} (hs : Spells (trimList s.toList) n) (hn : n ≤ maxCount) : AsksFor (.str s) n

/-- A number that is written as a text asks for the same delay. -/
theorem asksFor_natText {n : Nat} (hn : n ≤ maxCount) : AsksFor (.str (natText n)) n := by
  refine .text ?_ hn
  rw [natText, String.toList_ofList, trimList_eq_self fun c hc => isBlank_of_isDigit (isDigit_of_mem_digits hc)]
  exact spells_digits n

/-- **An action waits for as long as its delay asks for**, up to the longest delay. -/
theorem delayOf_of_asksFor {fields : JsonFields} {v : Json} {n : Nat} (hv : Entries.get? "delay" fields = some v)
    (hask : AsksFor v n) : delayOf fields = min n maxDelay := by
  rw [delayOf, hv]
  cases hask with
  | whole n => rfl
  | part hx => simp only [hx, if_true]
  | text hs hn => simp only [readCount?_eq_some_iff.2 ⟨hs, hn⟩, Option.getD_some]

/-- An action without a delay that asks for something does not wait. -/
theorem delayOf_eq_zero {fields : JsonFields} (hno : ∀ v n, Entries.get? "delay" fields = some v → ¬AsksFor v n) :
    delayOf fields = 0 := by
  unfold delayOf
  cases hv : Entries.get? "delay" fields with
  | none => rfl
  | some v =>
    have hno := fun n => hno v n hv
    cases v with
    | int k =>
      have hneg : ¬0 ≤ k := fun hk => by
        obtain ⟨n, rfl⟩ := Int.eq_ofNat_of_zero_le hk
        exact hno n (.whole n)
      have hzero : k.toNat = 0 := by omega
      simp only [hzero, Nat.zero_min]
    | double x =>
      have hx : x.isPositive = false := Bool.not_eq_true _ ▸ fun hx => hno _ (.part hx)
      simp only [hx, Bool.false_eq_true, if_false, Nat.zero_min]
    | str s =>
      have hnone : readCount? maxCount (trimList s.toList) = none := Option.eq_none_iff_forall_ne_some.2 fun n hn =>
        have ⟨hs, hmax⟩ := readCount?_eq_some_iff.1 hn
        hno n (.text hs hmax)
      simp only [hnone, Option.getD_none, Nat.zero_min]
    | _ => rfl

/-- **No action waits for longer than the longest delay.** -/
theorem delays_ofJson :
    (∀ v, ∀ n ∈ (ofJson v).delays, n ≤ maxDelay) ∧
      ∀ key fields, ∀ n ∈ (ofKey key fields).delays, n ≤ maxDelay := by
  apply Chain.ofJson.mutual_induct
  case case1 =>
    intro fields ihs ihe n hn
    rw [ofJson, Chain.delays] at hn
    rcases List.mem_cons.1 hn with rfl | hn
    · exact delayOf_le fields
    · rcases List.mem_append.1 hn with hn | hn
      · exact ihs n hn
      · exact ihe n hn
  case case2 =>
    intro v hv n hn
    have : (ofJson v).delays = [0] := by
      cases v with
      | obj fields => exact absurd rfl (hv fields)
      | _ => simp [ofJson, Chain.delays]
    rw [this, List.mem_singleton] at hn
    omega
  case case3 => intro key n hn; simp [ofKey, Chain.delays] at hn
  case case4 => intro k fields n hn; simp [ofKey, Chain.delays] at hn
  case case5 =>
    intro k fields v hv ih n hn
    rw [ofKey.eq_3 _ _ _ _ hv, if_pos rfl] at hn
    exact ih n hn
  case case6 =>
    intro key k v fields hk ih n hn
    unfold ofKey at hn
    rw [if_neg hk] at hn
    exact ih n hn

theorem mem_leafActions {v : Json} {c : Chain} (h : c ∈ leafActions v) : ∃ w, c = ofJson w := by
  unfold leafActions at h
  split at h
  · obtain ⟨w, -, rfl⟩ := List.mem_map.1 h
    exact ⟨w, rfl⟩
  · exact ⟨v, List.mem_singleton.1 h⟩

/-- A value that is no list has its own actions, or lies too deep. -/
theorem collect_leaf {v : Json} (hv : ∀ items, v ≠ .arr items) (maxDepth depth : Nat) :
    collect maxDepth depth v = if maxDepth < depth then leftOut maxDepth else (leafActions v, []) := by
  cases v with
  | arr items => exact absurd rfl (hv items)
  | _ => simp only [collect]

theorem mem_collect_leaf {maxDepth depth : Nat} {v : Json} (hv : ∀ items, v ≠ .arr items) {c : Chain}
    (hc : c ∈ (collect maxDepth depth v).1) : c ∈ leafActions v := by
  rw [collect_leaf hv] at hc
  split at hc
  · exact absurd hc List.not_mem_nil
  · exact hc

mutual
/-- The chains of a schema are chains of JSON values. -/
theorem mem_collect (maxDepth depth : Nat) :
    ∀ v, ∀ c ∈ (collect maxDepth depth v).1, ∃ w, c = ofJson w
  | .arr items => by
    intro c hc
    rw [collect] at hc
    split at hc
    · exact absurd hc List.not_mem_nil
    · exact mem_collectItems maxDepth (depth + 1) items c hc
  | .null | .bool _ | .int _ | .double _ | .str _ | .obj _ => by
    intro c hc
    exact mem_leafActions (mem_collect_leaf (fun _ h => by cases h) hc)

theorem mem_collectItems (maxDepth depth : Nat) :
    ∀ vs, ∀ c ∈ (collectItems maxDepth depth vs).1, ∃ w, c = ofJson w
  | [] => fun c hc => by rw [collectItems] at hc; exact absurd hc List.not_mem_nil
  | v :: vs => by
    intro c hc
    rw [collectItems, Collected.append] at hc
    rcases List.mem_append.1 hc with hc | hc
    · exact mem_collect maxDepth depth v c hc
    · exact mem_collectItems maxDepth depth vs c hc
end

end Chain

namespace Run

/-! ### The end of a pass -/

theorem close_eq (r : Run) : ∃ log, r.close =
    { r with scene := { r.scene with
      sent := r.scene.sent ++ if r.summary.total = 0 then [] else [.updateCounter r.summary.total]
      log := log } } := by
  unfold close
  simp only
  split
  · exact ⟨r.scene.log, by simp⟩
  · exact ⟨_, rfl⟩

end Run

open Chain in
/-- A pass goes through the chains of its schema, counts what it carries out, and closes. -/
theorem Sweeper.run_goes (i : Sweeper) (began : Instant) (schema : Json) (page : Page) :
    ∃ dss r, AllGo began i.maxDepth (collect i.maxDepth 0 schema).1
        ⟨0, page, i.styles, .zero, [], (collect i.maxDepth 0 schema).2⟩ dss r.stage ∧
      (i.start page (collect i.maxDepth 0 schema).2).Counts dss.flatten r ∧
      i.run began schema page = r.close := by
  have hdone : ∀ c ∈ (collect i.maxDepth 0 schema).1, c ≠ .done := by
    intro c hc
    obtain ⟨v, rfl⟩ := mem_collect i.maxDepth 0 schema c hc
    exact ofJson_ne_done v
  obtain ⟨dss, hg, hc⟩ := allGo_runAll began i.maxDepth _ hdone
    (i.start page (collect i.maxDepth 0 schema).2) rfl
  exact ⟨dss, _, hg, hc, rfl⟩

open Chain in
/-- **How a pass ends**: as its chains end, with counts of what was carried out, and with the message of its
total. -/
theorem Sweeper.run_ends (i : Sweeper) (began : Instant) (schema : Json) (page : Page) :
    ∃ (dss : List (List Deed)) (r : Run) (log : List Event),
      AllGo began i.maxDepth (collect i.maxDepth 0 schema).1
        ⟨0, page, i.styles, .zero, [], (collect i.maxDepth 0 schema).2⟩ dss r.stage ∧
      r.executed = dss.flatten.length ∧ (r.halted = true ↔ Reloads dss.flatten) ∧
      i.run began schema page = { r with scene := { r.scene with
        sent := r.scene.sent ++ if r.summary.total = 0 then [] else [.updateCounter r.summary.total]
        log := log } } := by
  obtain ⟨dss, r, hg, hc, hclosed⟩ := i.run_goes began schema page
  obtain ⟨log, hclose⟩ := r.close_eq
  have hexecuted : r.executed = dss.flatten.length := hc.executed.trans (Nat.zero_add _)
  exact ⟨dss, r, log, hg, hexecuted, hc.halted, hclosed.trans hclose⟩

open Chain in
/-- **A pass of any schema on any page goes as it should.** Through the chains of the schema there is one way
to go, and the pass goes it: it ends with the page, the styles and the counters of that way, and with its
messages and the one of its total. It counts the operations carried out and those that did not end well; it
halted just if a reload was carried out, which is then the last operation; the chains up to there, and all of
them without a reload, were each begun once and in their order; and it waited for the delays of what it
carried out. -/
theorem pass_agrees (i : Sweeper) (began : Instant) (schema : Json) (page : Page) :
    let actions := (collect i.maxDepth 0 schema).1
    let first : Stage := ⟨0, page, i.styles, .zero, [], (collect i.maxDepth 0 schema).2⟩
    let r := i.run began schema page
    ∃ dss t, (∀ dss' t', AllGo began i.maxDepth actions first dss' t' ↔ dss' = dss ∧ t' = t) ∧
      r.scene.page = t.scene.page ∧ r.scene.styles = t.scene.styles ∧
      r.scene.counters = t.scene.counters ∧
      r.scene.sent = t.scene.sent ++
        (if t.scene.counters.total = 0 then [] else [.updateCounter t.scene.counters.total]) ∧
      r.executed = dss.flatten.length ∧ r.failed = dss.flatten.countP (!·.ok) ∧
      (r.halted = true ↔ Reloads dss.flatten) ∧ (∀ d ∈ dss.flatten.dropLast, d.op ≠ .reload) ∧
      dss.map (fun ds => ds.head?.map fun d => (d.op, d.delay)) =
        (actions.take dss.length).map Chain.head? ∧
      (dss.length = actions.length ∨ Reloads dss.flatten) ∧
      r.executed ≤ actions.length * (i.maxDepth + 1) ∧
      r.elapsed = (dss.flatten.map Deed.delay).sum ∧ (∀ d ∈ dss.flatten, d.delay ≤ maxDelay) := by
  intro actions first r
  obtain ⟨dss, r₀, hg, hc, hclosed⟩ := i.run_goes began schema page
  obtain ⟨log, hclose⟩ := r₀.close_eq
  have hr : r = _ := hclosed.trans hclose
  have hel := hg.elapsed
  refine ⟨dss, _, fun dss' t' => ⟨fun h => h.det hg, ?_⟩, ?_⟩
  · rintro ⟨rfl, rfl⟩; exact hg
  rw [hr]
  refine ⟨rfl, rfl, rfl, rfl, ?_, ?_, hc.halted, hg.reload_last, hg.heads, hg.all, ?_, ?_, ?_⟩
  · simpa [Sweeper.start] using hc.executed
  · simpa [Sweeper.start] using hc.failed
  · have hex := hc.executed
    rw [show (i.start page (collect i.maxDepth 0 schema).2).executed = 0 from rfl, Nat.zero_add] at hex
    exact hex ▸ hg.length_le
  · simpa [Run.stage, Sweeper.start] using hel
  · intro d hd
    obtain ⟨c, hcs, hdc⟩ := hg.delays d hd
    obtain ⟨v, rfl⟩ := mem_collect i.maxDepth 0 schema c hcs
    exact delays_ofJson.1 v _ hdc

end PageSweep
