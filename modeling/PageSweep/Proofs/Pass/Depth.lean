import PageSweep.Proofs.Pass.Groups

/-!
# How deep a list of actions lies

The bound of a pass is for two things: how many actions may follow the first one of a chain, and how deep lists may
lie in each other. A chain of which nothing may follow still has its first action run. But what stands in a list lies
one deep already, so with a bound of none there is no chain to begin.

* `collect_actions`: the chains of a list of actions, for any bound.
* `Sweeper.run_without_depth`: a pass with a bound of none.
* `depth_bounds_lists`: which passes run the actions of a list.
-/

namespace PageSweep

/-- Whether a value is one action: an object that has no list of `actions`. -/
def Json.IsAction (v : Json) : Prop := (∃ fields, v = .obj fields) ∧ (v.get? "actions").bind Json.items? = none

theorem Json.IsAction.isPlain {v : Json} (h : v.IsAction) : v.isPlain = true := by
  obtain ⟨⟨fields, rfl⟩, hnone⟩ := h
  rw [Json.isPlain, Json.actions?, hnone]
  rfl

/-- **The actions of a list** are all there or all left out. -/
theorem collect_actions {actions : List Json} (h : ∀ v ∈ actions, v.IsAction) (maxDepth : Nat) :
    collect maxDepth 0 (.arr actions) =
      if maxDepth = 0 then ([], actions.map fun _ => .groupSkipped (.chainTooDeep 0))
      else (actions.map Chain.ofJson, []) := by
  rw [collect, if_neg (Nat.not_lt_zero _), collectItems_of_plain fun v hv => (h v hv).isPlain]
  cases maxDepth with
  | zero => rfl
  | succ n => rw [if_neg (by omega), if_neg (Nat.succ_ne_zero n)]

namespace Sweeper

/-- **Whether a pass runs a list of actions as it stands**: the chain of each in turn, up to a reload that is carried
out, with the operation of the action first in its chain. -/
structure RunsAll (i : Sweeper) (began : Instant) (actions : List Json) (page : Page) (dss : List (List Deed)) :
    Prop where
  /-- The page, the styles and the counters are those to which the chains lead. -/
  goes : ∃ t, Chain.AllGo began i.maxDepth (actions.map Chain.ofJson) ⟨0, page, i.styles, .zero, [], []⟩ dss t ∧
    (i.run began (.arr actions) page).scene.page = t.scene.page ∧
    (i.run began (.arr actions) page).scene.styles = t.scene.styles ∧
    (i.run began (.arr actions) page).scene.counters = t.scene.counters
  executed : (i.run began (.arr actions) page).executed = dss.flatten.length
  halted : (i.run began (.arr actions) page).halted = true ↔ Chain.Reloads dss.flatten
  firsts : dss.map (fun ds => ds.head?.map fun d => (d.op, d.delay)) =
    (actions.take dss.length).map fun v => (Chain.ofJson v).head?
  all : dss.length = actions.length ∨ Chain.Reloads dss.flatten
  reload_last : ∀ d ∈ dss.flatten.dropLast, d.op ≠ .reload

variable {i : Sweeper} {actions : List Json} (h : ∀ v ∈ actions, v.IsAction) (began : Instant) (page : Page)

include h

theorem runsAll_of_depth (hdepth : 0 < i.maxDepth ∨ actions = []) : ∃ dss, i.RunsAll began actions page dss := by
  have hcollect : collect i.maxDepth 0 (.arr actions) = (actions.map Chain.ofJson, []) := by
    rw [collect_actions h]
    rcases hdepth with hdepth | rfl
    · rw [if_neg (Nat.pos_iff_ne_zero.1 hdepth)]
    · split <;> rfl
  obtain ⟨dss, r, log, hgoes, hexecuted, hhalted, hrun⟩ := i.run_ends began (.arr actions) page
  rw [hcollect] at hgoes
  have hfirsts := hgoes.heads
  rw [← List.map_take, List.map_map] at hfirsts
  have hall := hgoes.all
  rw [List.length_map] at hall
  have hstage : (i.run began (.arr actions) page).scene.page = r.scene.page ∧
      (i.run began (.arr actions) page).scene.styles = r.scene.styles ∧
      (i.run began (.arr actions) page).scene.counters = r.scene.counters := by
    rw [hrun]
    exact ⟨rfl, rfl, rfl⟩
  exact ⟨dss, ⟨r.stage, hgoes, hstage⟩, hrun ▸ hexecuted, hrun ▸ hhalted, hfirsts, hall, hgoes.reload_last⟩

/-- **A pass with a bound of none** leaves the page as it is and says of each action that it was left out. -/
theorem run_without_depth (hdepth : i.maxDepth = 0) : i.run began (.arr actions) page =
    i.start page (actions.map fun _ => .groupSkipped (.chainTooDeep 0)) := by
  unfold run
  rw [collect_actions h, if_pos hdepth]
  rfl

/-- What a pass runs, it counts: nothing, with a bound of none. -/
theorem RunsAll.eq_nil {dss : List (List Deed)} (hruns : i.RunsAll began actions page dss) (hdepth : i.maxDepth = 0) :
    actions = [] := by
  have hexecuted := hruns.executed
  rw [run_without_depth h began page hdepth] at hexecuted
  have hnone : dss.flatten = [] := List.eq_nil_of_length_eq_zero hexecuted.symm
  rcases hruns.all with hall | ⟨d, hd, -⟩
  · have hfirsts := hruns.firsts
    rw [hall, List.take_length] at hfirsts
    cases actions with
    | nil => rfl
    | cons v vs =>
      -- The first action would have come first in its chain.
      obtain ⟨⟨fields, rfl⟩, -⟩ := h v List.mem_cons_self
      cases dss with
      | nil => cases hfirsts
      | cons ds dss =>
        rw [(List.append_eq_nil_iff.1 hnone).1] at hfirsts
        simp [Chain.ofJson, Chain.head?] at hfirsts
  · rw [hnone] at hd
    exact absurd hd List.not_mem_nil

end Sweeper

/-- **The bound of a pass is for lists as well as for chains.** A pass of a list of actions runs them all as they
stand, up to a reload, just if its bound is not none or the list is empty. With a bound of none it runs nothing and
says of each action that it was left out. -/
theorem depth_bounds_lists (i : Sweeper) (began : Instant) {actions : List Json} (h : ∀ v ∈ actions, v.IsAction)
    (page : Page) :
    ((∃ dss, i.RunsAll began actions page dss) ↔ 0 < i.maxDepth ∨ actions = []) ∧
      (i.maxDepth = 0 → i.run began (.arr actions) page =
        i.start page (actions.map fun _ => .groupSkipped (.chainTooDeep 0))) := by
  refine ⟨⟨fun ⟨dss, hruns⟩ => ?_, Sweeper.runsAll_of_depth h began page⟩, Sweeper.run_without_depth h began page⟩
  rcases Nat.eq_zero_or_pos i.maxDepth with hdepth | hdepth
  · exact .inr (hruns.eq_nil h began page hdepth)
  · exact .inl hdepth

/-- A banner and a button, with a bound of one. -/
theorem depth_bounds_lists_banner :
    let actions : List Json := [.obj [("action", .str "remove"), ("target", .str "#banner")],
      .obj [("action", .str "click"), ("target", .str "#accept"), ("onError", .obj [("action", .str "reload")])]]
    let page := ((Page.new "news.example").add none "div" [("id", "banner")]).1
    (∀ v ∈ actions, v.IsAction) ∧ ∃ dss, (Sweeper.new 1).RunsAll .epoch actions page dss := by
  intro actions page
  have h : ∀ v ∈ actions, v.IsAction :=
    List.forall_mem_cons.2 ⟨⟨⟨_, rfl⟩, rfl⟩, List.forall_mem_singleton.2 ⟨⟨_, rfl⟩, rfl⟩⟩
  exact ⟨h, (depth_bounds_lists (.new 1) .epoch h page).1.2 (.inl Nat.one_pos)⟩

/-- **A bound of none runs nothing**, not even the one action of a list. -/
theorem no_depth_runs_nothing :
    let actions : List Json := [.obj [("action", .str "remove"), ("target", .str "#banner")]]
    let page := ((Page.new "news.example").add none "div" [("id", "banner")]).1
    (∀ v ∈ actions, v.IsAction) ∧ ((Sweeper.new 0).run .epoch (.arr actions) page).scene.page = page ∧
      ¬∃ dss, (Sweeper.new 0).RunsAll .epoch actions page dss := by
  intro actions page
  have h : ∀ v ∈ actions, v.IsAction := List.forall_mem_singleton.2 ⟨⟨_, rfl⟩, rfl⟩
  refine ⟨h, ?_, fun ⟨dss, hruns⟩ => ?_⟩
  · rw [Sweeper.run_without_depth h .epoch page rfl]
    rfl
  · exact absurd (hruns.eq_nil h .epoch page rfl) (List.cons_ne_nil _ _)

end PageSweep
