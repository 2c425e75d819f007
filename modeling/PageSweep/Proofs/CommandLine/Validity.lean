import PageSweep.Proofs.CommandLine.AllOrNothing
import PageSweep.Proofs.Files.Saving
import PageSweep.Proofs.Settings.Warnings

/-!
# Valid settings stay valid

What the command line asks of a handler that is given to it and what is asked of a stored one are two different
checks: one trims what it is given and stores it trimmed, the other takes what is stored and trims it to see whether
it is an address. They agree, since trimming twice is trimming once. So no command about settings brings an error
into settings that had none. That they can still be loaded is a matter of saving: a save that fails must not have led
their path elsewhere.

* `Settings.isValid_iff`: settings are valid if each of their handlers is.
* `Command.Makes.isValid`: what a command makes of valid settings is valid.
* `FileTree.Edits.step_of_isMarked`: below a root that is marked, saving is no matter.
* `valid_settings_stay_valid`: all commands about settings, one after the other.
-/

namespace PageSweep

open Text

/-- A handler that has a name and a schema that can be read, or is to be fetched. -/
structure Handler.IsSound (h : Handler) : Prop where
  named : (trim h.name).isEmpty = false
  readable : h.isRemote = true ∨ ∃ v, Json.read h.schema = .ok v

/-- **A schema that is taken from an argument is one that passes when it is stored.** -/
theorem IsSchemaText.readable {text : String} (h : IsSchemaText (trim text)) (name : String) :
    let handler : Handler := ⟨name, trim text⟩
    handler.isRemote = true ∨ ∃ v, Json.read handler.schema = .ok v := by
  refine h.imp (fun haddress => ?_) id
  rw [Handler.isRemote, trim_trim, haddress]

/-- Of a sound handler no warning is an error. -/
theorem Handler.isSound_iff {index : Nat} {h : Handler} :
    h.IsSound ↔ ∀ w ∈ Warning.ofHandler index h, w.isError = false := by
  have hname : (∀ w ∈ (if (trimList h.name.toList).isEmpty then [Warning.unnamed index] else []),
      w.isError = false) ↔ (trim h.name).isEmpty = false := by
    rw [trim, isEmpty_ofList]
    cases (trimList h.name.toList).isEmpty <;> simp [Warning.isError]
  have hschema : (∀ w ∈ Warning.ofSchema index h, w.isError = false) ↔
      (h.isRemote = true ∨ ∃ v, Json.read h.schema = .ok v) := by
    cases hremote : h.isRemote with
    | true => simp [Warning.ofSchema_of_remote hremote]
    | false =>
      cases hread : Json.read h.schema with
      | error e => simp [Warning.ofSchema_of_unreadable hremote hread, Warning.isError]
      | ok v =>
        rw [Warning.ofSchema_of_read hremote hread]
        split <;> simp [Warning.isError]
  rw [Warning.ofHandler, List.forall_mem_append, hname, hschema]
  exact ⟨fun h => ⟨h.named, h.readable⟩, fun h => ⟨h.1, h.2⟩⟩

namespace Settings

/-- **Valid settings**: nothing that is wrong with them is an error. -/
def IsValid (s : Settings) : Prop := ∀ w ∈ s.warnings, w.isError = false

/-- **Settings are valid if each of their handlers is.** -/
theorem isValid_iff {s : Settings} : s.IsValid ↔ ∀ h ∈ s.handlers, h.IsSound := by
  constructor
  · intro hvalid h hh
    obtain ⟨i, hi⟩ := List.mem_iff_getElem?.1 hh
    have hclean : ∀ w ∈ Warning.ofHandler i h, w.isError = false := fun w hw =>
      hvalid w (mem_warnings_iff.2 (.inr (.inl ⟨i, h, hi, hw⟩)))
    exact Handler.isSound_iff.2 hclean
  · intro hsound w hw
    obtain ⟨rfl, -⟩ | ⟨i, h, hi, hw⟩ | ⟨rfl, -⟩ := mem_warnings_iff.1 hw
    · rfl
    · exact Handler.isSound_iff.1 (hsound h (List.mem_of_getElem? hi)) w hw
    · rfl

theorem isValid_default : Settings.default.IsValid := by
  rw [isValid_iff]
  intro h hh
  rw [List.mem_singleton.1 hh]
  exact ⟨by decide, .inl (by decide +kernel)⟩

end Settings

/-- **What a command makes of valid settings is valid.** -/
theorem Command.Makes.isValid {d : Desk} {c : Command} {s' : Settings} (h : c.Makes d (.settings s'))
    (hd : ∀ s, d.loadSettings = .ok s → s.IsValid) : s'.IsValid := by
  cases h with
  | @added s name _ text hs hname _ hschema =>
    rw [Settings.isValid_iff]
    intro x hx
    rcases List.mem_append.1 hx with hx | hx
    · exact Settings.isValid_iff.1 (hd s hs) x hx
    · rw [List.mem_singleton.1 hx]
      exact ⟨by rw [trim_trim, hname], hschema.readable _⟩
  | @updated s old _ name? _ text? hs hold hname _ hschema =>
    have hvalid := Settings.isValid_iff.1 (hd s hs)
    have hsound : old.IsSound := hvalid old (List.mem_of_getElem? hold)
    rw [Settings.isValid_iff]
    intro x hx
    rcases List.mem_or_eq_of_mem_set hx with hx | rfl
    · exact hvalid x hx
    · refine ⟨?_, ?_⟩
      · cases name? with
        | none => exact hsound.named
        | some name =>
          show (trim (trim name)).isEmpty = false
          rw [trim_trim, hname name rfl]
      · cases text? with
        | none => exact hsound.readable
        | some text => exact (hschema text rfl).readable _
  | @removed s _ _ hs =>
    rw [Settings.isValid_iff]
    exact fun x hx => Settings.isValid_iff.1 (hd s hs) x (List.mem_of_mem_eraseIdx hx)
  | reset => exact Settings.isValid_default
  | @debugging s _ hs => exact Settings.isValid_iff.2 (Settings.isValid_iff.1 (hd s hs))

namespace FileTree

variable {root : Path} {t u : FileTree}

/-- The settings that are stored for a root. -/
def loadSettings (t : FileTree) (root : Path) : Except Error Settings :=
  ((t.readOptional (settingsPath root)).mapError Error.file).bind Settings.load

/-- **Valid settings are stored for a root**, or none. -/
def HoldsValid (t : FileTree) (root : Path) : Prop := ∃ s, t.loadSettings root = .ok s ∧ s.IsValid

theorem loadSettings_desk {answers : String → Answer} {now : Instant} {s : Settings} :
    (t.desk root answers now).loadSettings = .ok s ↔ t.loadSettings root = .ok s := Desk.loadSettings_eq_ok

/-- **Commands about the settings of a root, one after the other**, on files that are faithful: what is saved is read
as it was written, and saving is all or nothing. -/
inductive Edits (root : Path) (t : FileTree) : FileTree → Prop where
  | refl : Edits root t t
  | step {u : FileTree} (h : Edits root t u) {i : Invocation} {answers : String → Answer} {now : Instant}
      (hroot : u.rootFor i.root = root) (habout : i.command.isAboutSettings = true)
      (hread : ∀ s, i.command.Makes (u.desk root answers now) (.settings s) →
        Settings.readYaml s.writeYaml = .ok s)
      (hwhole : u.SavesWhole (settingsPath root)) :
      Edits root t (u.invoke i answers now).2

theorem IsMarked.carryOut (h : t.IsMarked root) {r : Decision} (hr : ∀ b, r.change ≠ .state b) :
    (t.carryOut root r).2.IsMarked root := by
  unfold FileTree.carryOut
  cases hc : r.change with
  | nothing => exact h
  | settings s =>
    have hwrite := h.writeText s.writeYaml
    simp only [Change.file?]
    split
    · rename_i hok
      rw [hok] at hwrite
      exact hwrite
    · rename_i hfailed
      rw [hfailed] at hwrite
      exact hwrite
  | state b => exact absurd hc (hr b)

/-- A root that is marked stays so. -/
theorem Edits.isMarked (h : Edits root t u) (hmarked : t.IsMarked root) : u.IsMarked root := by
  induction h with
  | refl => exact hmarked
  | step _ hroot habout _ _ ih =>
    unfold invoke
    simp only
    split
    · exact ih
    · rename_i r hdecide
      rw [hroot]
      refine ih.carryOut fun b hb => ?_
      have hmakes := (Command.makes_of_decide hdecide).1
      rw [hb] at hmakes
      exact absurd hmakes.state (by simp [habout])

/-- **From a root that is marked nothing is asked of saving.** -/
theorem Edits.step_of_isMarked (h : Edits root t u) (hmarked : t.IsMarked root) {i : Invocation}
    {answers : String → Answer} {now : Instant} (hroot : u.rootFor i.root = root)
    (habout : i.command.isAboutSettings = true)
    (hread : ∀ s, i.command.Makes (u.desk root answers now) (.settings s) → Settings.readYaml s.writeYaml = .ok s) :
    Edits root t (u.invoke i answers now).2 :=
  h.step hroot habout hread (savesWhole_of_isMarked (h.isMarked hmarked))

/-- One command about settings: what is stored then is valid. -/
theorem HoldsValid.invoke (h : t.HoldsValid root) {i : Invocation} {answers : String → Answer} {now : Instant}
    (hroot : t.rootFor i.root = root) (habout : i.command.isAboutSettings = true)
    (hread : ∀ s, i.command.Makes (t.desk root answers now) (.settings s) → Settings.readYaml s.writeYaml = .ok s)
    (hwhole : t.SavesWhole (settingsPath root)) : (t.invoke i answers now).2.HoldsValid root := by
  obtain ⟨s, hs, hvalid⟩ := h
  have hcases := t.invoke_cases i answers now
  rw [hroot] at hcases
  rcases hcases with ⟨-, c, hmakes, hmade⟩ | ⟨-, hsame | ⟨c, hmakes, path, text, failure, e, hfile, hwrite⟩⟩
  · cases c with
    | nothing =>
      rw [show (t.invoke i answers now).2 = t from hmade]
      exact ⟨s, hs, hvalid⟩
    | settings s' =>
      have hloaded := hmade.comesBack answers now (hread s' hmakes)
      refine ⟨s', loadSettings_desk.1 hloaded, hmakes.isValid fun s₀ hs₀ => ?_⟩
      have hsame : s = s₀ := Except.ok.inj (hs.symm.trans (loadSettings_desk.1 hs₀))
      exact hsame ▸ hvalid
    | state b => exact absurd hmakes.state (by simp [habout])
  · rw [hsame]
    exact ⟨s, hs, hvalid⟩
  · cases c with
    | nothing => cases hfile
    | settings s' =>
      cases hfile
      exact ⟨s, by rw [loadSettings, hwhole _ _ _ hwrite]; exact hs, hvalid⟩
    | state b => exact absurd hmakes.state (by simp [habout])

end FileTree

open FileTree in
/-- **Valid settings stay valid.** Whatever settings are stored for a root, or none: if they are read and nothing that
is wrong with them is an error, the same holds after any row of commands about them, whatever these are given and
whether they go well or not. -/
theorem valid_settings_stay_valid {root : Path} {t u : FileTree} (h : Edits root t u) (hvalid : t.HoldsValid root) :
    u.HoldsValid root := by
  induction h with
  | refl => exact hvalid
  | step _ hroot habout hread hwhole ih => exact ih.invoke hroot habout hread hwhole

/-- Settings without handlers are stored. -/
def shopFiles : FileTree :=
  ⟨[(["home", ".uncookie", "config.yaml"], .file "handlers: []\n".toUTF8), (["home", ".uncookie"], .directory),
    (["home"], .directory)], ["home"]⟩

def shopRoot : Path := .ofText "/home"

/-- Adds a handler, given with blanks around its name and its schema. -/
def addShop : Invocation := ⟨some "/home", false, .addHandler " shop.example " " [] "⟩

/-- Adds a handler without a name, which fails. -/
def addUnnamed : Invocation := ⟨some "/home", false, .addHandler " " "[]"⟩

def shopAdded : FileTree := (shopFiles.invoke addShop (fun _ => .unreachable) .epoch).2

theorem loadSettings_shopFiles : shopFiles.loadSettings shopRoot = .ok ⟨[], true, 32, 3600⟩ := by decide +kernel

/-- The settings with the handler are read as they are written. -/
theorem readYaml_shopAdded :
    let s : Settings := ⟨[⟨"shop.example", "[]"⟩], true, 32, 3600⟩
    Settings.readYaml s.writeYaml = .ok s := by
  intro s
  have hwritten : s.writeYaml = "handlers:\n- name: shop.example\n  schema: '[]'\ndebug: true\n" ++
      "max_chain_depth: 32\ncache_ttl_secs: 3600\n" := by
    simp only [s, Settings.writeYaml, Settings.toJson, Handler.toJson, Yaml.write, List.map_cons, List.map_nil,
      Yaml.blockChars, Yaml.fieldChars, Yaml.valueChars, Yaml.itemChars, Json.ofNat]
    decide +kernel
  rw [hwritten]
  decide +kernel

open FileTree in
theorem valid_settings_stay_valid_shopFiles :
    shopFiles.HoldsValid shopRoot ∧
      (shopAdded.invoke addUnnamed (fun _ => .unreachable) .epoch).2.HoldsValid shopRoot := by
  have hvalid : shopFiles.HoldsValid shopRoot :=
    ⟨_, loadSettings_shopFiles, Settings.isValid_iff.2 fun h hh => absurd hh List.not_mem_nil⟩
  have hmarked : shopFiles.IsMarked shopRoot := by unfold IsMarked; decide +kernel
  have hadded : Edits shopRoot shopFiles shopAdded := by
    refine Edits.refl.step_of_isMarked hmarked rfl rfl fun s hs => ?_
    cases hs with
    | added hload _ htext _ =>
      have hload' := loadSettings_desk.1 hload
      rw [loadSettings_shopFiles] at hload'
      obtain rfl := Except.ok.inj hload'
      obtain rfl := Except.ok.inj htext
      exact readYaml_shopAdded
  have hfailed : Edits shopRoot shopFiles (shopAdded.invoke addUnnamed (fun _ => .unreachable) .epoch).2 := by
    refine hadded.step_of_isMarked hmarked rfl rfl fun s hs => ?_
    cases hs with
    | added _ hname _ _ => exact absurd hname (by decide)
  exact ⟨hvalid, valid_settings_stay_valid hfailed hvalid⟩

/-- There is a page, and no directory beside it. -/
def pageFiles : FileTree :=
  ⟨[(["home", "page.yaml"], .file "hostname: shop.example\n".toUTF8), (["home"], .directory)], ["home"]⟩

/-- The page, over a directory that is not there; it is looked for only when that has been found. -/
def lostRoot : Path := .ofText "lost/../page.yaml"

def removeFirst : Invocation := ⟨some "lost/../page.yaml", false, .removeHandler 0⟩

/-- Settings without handlers are read as they are written. -/
theorem readYaml_noHandlers :
    let s : Settings := ⟨[], true, 32, 3600⟩
    Settings.readYaml s.writeYaml = .ok s := by
  intro s
  have hwritten : s.writeYaml = "handlers: []\ndebug: true\nmax_chain_depth: 32\ncache_ttl_secs: 3600\n" := by
    simp only [s, Settings.writeYaml, Settings.toJson, Yaml.write, List.map_nil, Yaml.blockChars, Yaml.fieldChars,
      Yaml.valueChars, Json.ofNat]
    decide +kernel
  rw [hwritten]
  decide +kernel

open FileTree in
/-- **Valid settings can be lost** where saving is not all or nothing: nothing is stored at first, then a handler is
removed from the ones of someone who has set nothing, which fails at the page, and by then `lost` has been made and
the settings are looked for in the page. -/
theorem valid_settings_lost :
    pageFiles.HoldsValid lostRoot ∧
      (∀ s, removeFirst.command.Makes (pageFiles.desk lostRoot (fun _ => .unreachable) .epoch) (.settings s) →
        Settings.readYaml s.writeYaml = .ok s) ∧
      ¬ (pageFiles.invoke removeFirst (fun _ => .unreachable) .epoch).2.HoldsValid lostRoot := by
  have hload : pageFiles.loadSettings lostRoot = .ok .default := by decide +kernel
  have hlost :
      ((pageFiles.invoke removeFirst (fun _ => .unreachable) .epoch).2.loadSettings lostRoot).isOk = false := by
    decide +kernel
  refine ⟨⟨_, hload, Settings.isValid_default⟩, fun s hs => ?_, ?_⟩
  · cases hs with
    | removed hs' =>
      obtain rfl := Except.ok.inj (hload.symm.trans (loadSettings_desk.1 hs'))
      exact readYaml_noHandlers
  · rintro ⟨s, hs, -⟩
    rw [hs] at hlost
    cases hlost

end PageSweep
