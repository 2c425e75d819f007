import PageSweep.CommandLine.Run
import PageSweep.Proofs.CommandLine.Changes
import PageSweep.Proofs.Files.Path
import PageSweep.Proofs.Files.Writing

/-!
# All of a change or nothing

A command that fails leaves all files as they were, wherever it fails: in looking, in checking what it is given, in
deciding or in writing. A command that succeeds has made its one change in the one file that the change is for, or
has none to make.

* `FileTree.carryOut_cases`: what comes of a decision.
* `commands_all_or_nothing`: all commands, on all files.
-/

namespace PageSweep

namespace FileTree

variable {root : Path} {t u : FileTree} {p : Path} {text : String}

theorem Writes.readOptional (h : t.Writes u p text) : u.readOptional p = .ok (some text) := by
  rw [FileTree.readOptional, h.1]

/-- A file with another name than a path is not touched by writing there. -/
theorem Writes.dataAt?_of_name {name : String} (h : t.Writes u p text) (hname : p.pieces.getLast? = some name)
    {way : List String} (hway : way.getLast? ≠ some name) : u.dataAt? way = t.dataAt? way := by
  obtain ⟨-, written, hwritten, -, hothers⟩ := h
  refine hothers way fun heq => hway ?_
  rw [heq, hwritten, hname]

end FileTree

namespace Change

/-- **A change is made** in the file that it concerns, and in no other. -/
def MadeIn (root : Path) (t u : FileTree) : Change → Prop
  | nothing => u = t
  | settings s => t.Writes u (settingsPath root) s.writeYaml
  | state b => t.Writes u (statePath root) b.writeYaml

/-- The file that a change concerns cannot be written. -/
def CannotBeMade (root : Path) (t u : FileTree) (c : Change) : Prop :=
  ∃ path text failure e, c.file? root = some (path, text, failure) ∧ t.writeText path text = (.error e, u)

/-- What is stored is loaded again, if its written form reads as what it was written for. -/
def ComesBack (d : Desk) : Change → Prop
  | nothing => True
  | settings s => Settings.readYaml s.writeYaml = .ok s → d.loadSettings = .ok s
  | state b => Badge.readYaml b.writeYaml = .ok b → d.loadBadge = .ok b

variable {root : Path} {t u : FileTree} {c : Change}

theorem MadeIn.comesBack (h : c.MadeIn root t u) (answers : String → Answer) (now : Instant) :
    c.ComesBack (u.desk root answers now) := by
  cases c with
  | nothing => trivial
  | settings s =>
    intro hyaml
    have hread : (u.desk root answers now).settings = .ok (some s.writeYaml) := h.readOptional
    rw [Desk.loadSettings_eq_ok, hread]
    exact hyaml
  | state b =>
    intro hyaml
    have hread : (u.desk root answers now).state = .ok (some b.writeYaml) := h.readOptional
    have hload : ((u.desk root answers now).state.mapError Error.file).bind Badge.load = .ok b := by
      rw [hread]
      exact hyaml
    rw [Desk.loadBadge, hload]

theorem CannotBeMade.sameFiles (h : c.CannotBeMade root t u) : t.SameFiles u := by
  obtain ⟨path, text, _, e, -, hwrite⟩ := h
  rcases t.writeText_cases path text with ⟨e', u', hfailed, hsame⟩ | ⟨u', hok, -⟩
  · rw [hwrite] at hfailed
    exact (Prod.mk.inj hfailed).2 ▸ hsame
  · rw [hwrite] at hok
    cases hok

theorem madeIn_of_file? {path : Path} {text : String} {failure : FileFault → CommandError}
    (hfile : c.file? root = some (path, text, failure)) (h : t.Writes u path text) : c.MadeIn root t u := by
  cases c <;> cases hfile <;> exact h

/-- What a command changes is not in files of other names than those it is about. -/
theorem MadeIn.dataAt?_of_name {command : Command} {d : Desk} (h : c.MadeIn root t u) (hmakes : command.Makes d c)
    {way : List String} (hway : way.getLast? ≠ some (if command.isAboutSettings then "config.yaml" else "state.yaml")) :
    u.dataAt? way = t.dataAt? way := by
  cases c with
  | nothing => rw [show u = t from h]
  | settings s =>
    rw [hmakes.settings] at hway
    exact h.dataAt?_of_name (getLast?_settingsPath root) hway
  | state b =>
    rw [hmakes.state] at hway
    exact h.dataAt?_of_name (getLast?_statePath root) hway

end Change

namespace FileTree

/-- **What comes of a decision**: its change is made, or there is a complaint and none to make, or it cannot be
made. -/
theorem carryOut_cases {r : Decision} (hr : r.failure.isSome → r.change = .nothing) (t : FileTree) (root : Path) :
    let done := t.carryOut root r
    done.1.code = 0 ∧ r.change.MadeIn root t done.2 ∨
      done.1.code = 1 ∧ (done.2 = t ∨ r.change.CannotBeMade root t done.2) := by
  simp only
  unfold carryOut
  split
  · rename_i hfile
    have hnothing : r.change = .nothing := by
      cases hc : r.change with
      | nothing => rfl
      | settings s => rw [hc] at hfile; cases hfile
      | state b => rw [hc] at hfile; cases hfile
    rw [hnothing]
    cases hfailure : r.failure with
    | none => exact .inl ⟨by rw [Output.ofDecision, hfailure]; rfl, rfl⟩
    | some e => exact .inr ⟨by rw [Output.ofDecision, hfailure]; rfl, .inl rfl⟩
  · rename_i path text failure hfile
    have hnone : r.failure = none := by
      cases hfailure : r.failure with
      | none => rfl
      | some e =>
        rw [hr (by rw [hfailure]; rfl)] at hfile
        cases hfile
    rcases t.writeText_cases path text with ⟨e, u, hwrite, -⟩ | ⟨u, hwrite, hwrites⟩
    · rw [hwrite]
      exact .inr ⟨rfl, .inr ⟨path, text, failure, e, hfile, hwrite⟩⟩
    · rw [hwrite]
      exact .inl ⟨by rw [Output.ofDecision, hnone]; rfl, Change.madeIn_of_file? hfile hwrites⟩

/-- **What comes of a command**: it makes its change, or it fails and has done nothing, or its change cannot be
made. -/
theorem invoke_cases (t : FileTree) (i : Invocation) (answers : String → Answer) (now : Instant) :
    let root := t.rootFor i.root
    let done := t.invoke i answers now
    (done.1.code = 0 ∧ ∃ c, i.command.Makes (t.desk root answers now) c ∧ c.MadeIn root t done.2) ∨
      done.1.code = 1 ∧ (done.2 = t ∨
        ∃ c, i.command.Makes (t.desk root answers now) c ∧ c.CannotBeMade root t done.2) := by
  simp only
  unfold invoke
  simp only
  split
  · exact .inr ⟨rfl, .inl rfl⟩
  · rename_i r hdecide
    obtain ⟨hmakes, hfailure⟩ := Command.makes_of_decide hdecide
    rcases carryOut_cases hfailure t (t.rootFor i.root) with ⟨hcode, hmade⟩ | ⟨hcode, hsame | hfailed⟩
    · exact .inl ⟨hcode, r.change, hmakes, hmade⟩
    · exact .inr ⟨hcode, .inl hsame⟩
    · exact .inr ⟨hcode, .inr ⟨r.change, hmakes, hfailed⟩⟩

end FileTree

/-- **Commands change all they are for or nothing.** Whatever the files hold and whatever is asked for, a command
either fails, and all files hold what they held, or it succeeds, and has made the change that it is for: a handler
comes last, a handler has what is given for it, a handler is gone, a setting is set, or the badge is counted on or
back at nothing, while all other handlers and settings stay in their order. The change is made in one file, and is
loaded again as it was made. Commands about settings never touch a file of another name than the settings have,
nor do the others with that of the badge. -/
theorem commands_all_or_nothing (t : FileTree) (i : Invocation) (answers : String → Answer) (now : Instant) :
    let root := t.rootFor i.root
    let output := (t.invoke i answers now).1
    let u := (t.invoke i answers now).2
    (output.code = 1 ∧ t.SameFiles u ∨
      output.code = 0 ∧ ∃ change, i.command.Makes (t.desk root answers now) change ∧ change.MadeIn root t u ∧
        change.ComesBack (u.desk root answers now)) ∧
    ∀ way : List String, way.getLast? ≠ some (if i.command.isAboutSettings then "config.yaml" else "state.yaml") →
      u.dataAt? way = t.dataAt? way := by
  intro root output u
  rcases t.invoke_cases i answers now with ⟨hcode, c, hmakes, hmade⟩ | ⟨hcode, hfailed⟩
  · exact ⟨.inr ⟨hcode, c, hmakes, hmade, hmade.comesBack answers now⟩,
      fun way hway => hmade.dataAt?_of_name hmakes hway⟩
  · have hsame : t.SameFiles u := by
      rcases hfailed with hu | ⟨c, -, hcannot⟩
      · rw [show u = t from hu]
        exact .refl t
      · exact hcannot.sameFiles
    exact ⟨.inl ⟨hcode, hsame⟩, fun way _ => hsame way⟩

end PageSweep
