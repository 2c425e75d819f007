import PageSweep.CommandLine.Decision

/-!
# What commands change

A command that goes well changes what it is for, and nothing else: one handler, one setting or the total of the
badge. All it looks at has been read and all it is given has been checked by then, and a command that complains
after it has printed changes nothing.

* `Command.makes_of_run`, `Command.makes_of_addHandler`, `Command.makes_of_updateHandler`: single commands.
* `Command.makes_of_decide`: what a decision changes.
* `Command.Makes.settings`, `Command.Makes.state`: settings are changed by commands about settings, and the badge by
  others.
-/

namespace PageSweep

open Text

theorem mapError_eq_ok {ε ε' α : Type} {f : ε → ε'} {x : Except ε α} {a : α} : x.mapError f = .ok a ↔ x = .ok a := by
  cases x with
  | error e => exact ⟨nofun, nofun⟩
  | ok b => exact ⟨fun h => congrArg Except.ok (Except.ok.inj h), fun h => congrArg Except.ok (Except.ok.inj h)⟩

/-- What can stand as the schema of a handler: an address, or JSON. -/
def IsSchemaText (text : String) : Prop := isAddress text = true ∨ ∃ v, Json.read text = .ok v

namespace Desk

variable {d : Desk} {name argument text : String}

/-- Settings that are read are loaded. -/
theorem loadSettings_eq_ok {s : Settings} :
    d.loadSettings = .ok s ↔ (d.settings.mapError Error.file).bind Settings.load = .ok s := by
  constructor
  · intro h
    unfold loadSettings at h
    split at h
    · rename_i s' hs
      rw [hs, Except.ok.inj h]
    · cases h
  · intro h
    rw [loadSettings, h]

theorem handlerName_eq_ok (h : handlerName name = .ok text) : text = trim name ∧ text.isEmpty = false := by
  unfold handlerName at h
  split at h
  · cases h
  · rename_i hne
    obtain rfl := Except.ok.inj h
    exact ⟨rfl, by simpa using hne⟩

/-- The schema of a handler is what the argument gives, trimmed, and it is one. -/
theorem handlerSchema_eq_ok (h : d.handlerSchema argument = .ok text) :
    ∃ given, d.schemaText argument = .ok given ∧ text = trim given ∧ IsSchemaText text := by
  obtain ⟨given, hgiven, h⟩ := bind_eq_ok.1 h
  refine ⟨given, hgiven, ?_⟩
  simp only at h
  split at h
  · cases h
  · split at h
    · rename_i haddress
      obtain rfl := Except.ok.inj h
      exact ⟨rfl, .inl haddress⟩
    · split at h
      · rename_i v hread
        obtain rfl := Except.ok.inj h
        exact ⟨rfl, .inr ⟨v, hread⟩⟩
      · cases h

/-- The walk of a run over a page. -/
def walk (d : Desk) (s : Settings) (page : Snapshot) : Walk :=
  (Visit.open_ (Page.ofSnapshot page).1 s.maxChainDepth s.cacheTtl s.handlers d.now).walk d.answers 0

/-- What an argument that may be missing is read as. -/
theorem optionally_eq_ok {α β : Type} {f : α → Except CommandError β} {a? : Option α} {b? : Option β}
    (h : optionally f a? = .ok b?) : (a? = none ∧ b? = none) ∨ ∃ a b, a? = some a ∧ b? = some b ∧ f a = .ok b := by
  cases a? with
  | none =>
    obtain rfl := Except.ok.inj h
    exact .inl ⟨rfl, rfl⟩
  | some a =>
    rw [optionally] at h
    cases hf : f a with
    | error e => rw [hf] at h; cases h
    | ok b =>
      rw [hf] at h
      obtain rfl := Except.ok.inj h
      exact .inr ⟨a, b, rfl, rfl, hf⟩

theorem optionally_handlerName {name? text? : Option String} (h : optionally handlerName name? = .ok text?) :
    text? = name?.map trim ∧ ∀ name, name? = some name → (trim name).isEmpty = false := by
  rcases optionally_eq_ok h with ⟨rfl, rfl⟩ | ⟨name, text, rfl, rfl, hname⟩
  · exact ⟨rfl, nofun⟩
  · obtain ⟨rfl, hne⟩ := handlerName_eq_ok hname
    exact ⟨rfl, fun _ heq => Option.some.inj heq ▸ hne⟩

theorem optionally_handlerSchema {argument? text? : Option String}
    (h : optionally d.handlerSchema argument? = .ok text?) :
    ∃ given?, optionally d.schemaText argument? = .ok given? ∧ text? = given?.map trim ∧
      ∀ given, given? = some given → IsSchemaText (trim given) := by
  rcases optionally_eq_ok h with ⟨rfl, rfl⟩ | ⟨argument, text, rfl, rfl, hschema⟩
  · exact ⟨none, rfl, rfl, nofun⟩
  · obtain ⟨given, hgiven, rfl, hsound⟩ := handlerSchema_eq_ok hschema
    refine ⟨some given, ?_, rfl, fun _ heq => Option.some.inj heq ▸ hsound⟩
    rw [optionally, hgiven]
    rfl

end Desk

namespace Settings

variable {s s' : Settings} {index : Nat} {h : Handler}

theorem update_eq_ok {name? schema? : Option String} (hupdate : s.update index name? schema? = .ok (h, s')) :
    ∃ old, s.handlers[index]? = some old ∧
      s' = { s with handlers := s.handlers.set index ⟨name?.getD old.name, schema?.getD old.schema⟩ } := by
  unfold update at hupdate
  split at hupdate
  · cases hupdate
  · rename_i old hold
    obtain ⟨-, rfl⟩ := Prod.mk.inj (Except.ok.inj hupdate)
    exact ⟨old, hold, rfl⟩

theorem remove_eq_ok (hremove : s.remove index = .ok (h, s')) :
    s.handlers[index]? = some h ∧ s' = { s with handlers := s.handlers.eraseIdx index } := by
  unfold remove at hremove
  split at hremove
  · cases hremove
  · rename_i old hold
    obtain ⟨rfl, rfl⟩ := Prod.mk.inj (Except.ok.inj hremove)
    exact ⟨hold, rfl⟩

end Settings

namespace Command

/-- Whether a command only looks at what is stored. -/
def looks : Command → Bool
  | check _ => true
  | fetch _ => true
  | listHandlers => true
  | showSettings => true
  | validateSettings => true
  | showCounter => true
  | _ => false

/-- **What a command changes** when all goes well. -/
inductive Makes (d : Desk) : Command → Change → Prop where
  | looked {c : Command} (hc : c.looks) : Makes d c .nothing
  /-- A handler comes last. -/
  | added {s : Settings} {name schema text : String} (hs : d.loadSettings = .ok s)
      (hname : (trim name).isEmpty = false) (htext : d.schemaText schema = .ok text)
      (hschema : IsSchemaText (trim text)) :
      Makes d (addHandler name schema) (.settings { s with handlers := s.handlers ++ [⟨trim name, trim text⟩] })
  /-- A handler has what is given, and keeps what is not. -/
  | updated {s : Settings} {h : Handler} {index : Nat} {name? schema? text? : Option String}
      (hs : d.loadSettings = .ok s) (hh : s.handlers[index]? = some h)
      (hname : ∀ name, name? = some name → (trim name).isEmpty = false)
      (htext : Desk.optionally d.schemaText schema? = .ok text?)
      (hschema : ∀ text, text? = some text → IsSchemaText (trim text)) :
      Makes d (updateHandler index name? schema?) (.settings { s with
        handlers := s.handlers.set index ⟨(name?.map trim).getD h.name, (text?.map trim).getD h.schema⟩ })
  | removed {s : Settings} {h : Handler} {index : Nat} (hs : d.loadSettings = .ok s)
      (hh : s.handlers[index]? = some h) :
      Makes d (removeHandler index) (.settings { s with handlers := s.handlers.eraseIdx index })
  | reset : Makes d resetSettings (.settings .default)
  | debugging {s : Settings} {on : Bool} (hs : d.loadSettings = .ok s) :
      Makes d (setDebug on) (.settings { s with debug := on })
  /-- What a walk told is counted. -/
  | counted {s : Settings} {b : Badge} {path text : String} {dump : Bool} {page : Snapshot}
      (hs : d.loadSettings = .ok s) (htext : d.file path = .ok text) (hpage : Snapshot.readYaml text = .ok page)
      (hb : d.loadBadge = .ok b) : Makes d (run path dump) (.state (b.applyAll (d.walk s page).sent))
  | zeroed {b : Badge} (hb : d.loadBadge = .ok b) : Makes d resetCounter (.state .zero)

variable {d : Desk} {json : Bool} {r : Decision}

/-- A run that goes well has counted all that its walk told, and nothing ended the program on the way. -/
theorem makes_of_run {path : String} {dump : Bool} (h : d.run json path dump = .ok r) :
    (run path dump).Makes d r.change ∧ r.failure = none := by
  obtain ⟨s, hs, h⟩ := bind_eq_ok.1 h
  obtain ⟨text, htext, h⟩ := bind_eq_ok.1 h
  obtain ⟨page, hpage, h⟩ := bind_eq_ok.1 h
  simp only at h
  split at h
  · cases h
  · obtain ⟨b, hb, h⟩ := bind_eq_ok.1 h
    obtain rfl := Except.ok.inj h
    exact ⟨.counted hs (mapError_eq_ok.1 htext) (mapError_eq_ok.1 hpage) hb, rfl⟩

theorem makes_of_check {argument : String} (h : d.check json argument = .ok r) :
    (check argument).Makes d r.change ∧ r.failure = none := by
  obtain ⟨text, -, h⟩ := bind_eq_ok.1 h
  simp only at h
  split at h
  · -- An address is not looked into.
    obtain rfl := Except.ok.inj h
    exact ⟨.looked rfl, rfl⟩
  · split at h
    · cases h
    · obtain rfl := Except.ok.inj h
      exact ⟨.looked rfl, rfl⟩

theorem makes_of_fetch {url : String} (h : d.fetch json url = .ok r) :
    (fetch url).Makes d r.change ∧ r.failure = none := by
  obtain ⟨s, -, h⟩ := bind_eq_ok.1 h
  split at h
  · cases h
  · obtain rfl := Except.ok.inj h
    exact ⟨.looked rfl, rfl⟩

/-- The name and the schema have been checked before the settings are looked at. -/
theorem makes_of_addHandler {name schema : String} (h : d.addHandler json name schema = .ok r) :
    (addHandler name schema).Makes d r.change ∧ r.failure = none := by
  obtain ⟨name', hname, h⟩ := bind_eq_ok.1 h
  obtain ⟨schema', hschema, h⟩ := bind_eq_ok.1 h
  obtain ⟨s, hs, h⟩ := bind_eq_ok.1 h
  obtain rfl := Except.ok.inj h
  obtain ⟨rfl, hne⟩ := Desk.handlerName_eq_ok hname
  obtain ⟨text, htext, rfl, hsound⟩ := Desk.handlerSchema_eq_ok hschema
  exact ⟨.added hs hne htext hsound, rfl⟩

/-- What is given has been checked before the settings are looked at, and there is a handler at the index. -/
theorem makes_of_updateHandler {index : Nat} {name? schema? : Option String}
    (h : d.updateHandler json index name? schema? = .ok r) :
    (updateHandler index name? schema?).Makes d r.change ∧ r.failure = none := by
  rw [Desk.updateHandler] at h
  split at h
  · cases h
  · obtain ⟨name', hname, h⟩ := bind_eq_ok.1 h
    obtain ⟨schema', hschema, h⟩ := bind_eq_ok.1 h
    obtain ⟨s, hs, h⟩ := bind_eq_ok.1 h
    obtain ⟨⟨h', s'⟩, hupdate, h⟩ := bind_eq_ok.1 h
    obtain rfl := Except.ok.inj h
    obtain ⟨rfl, hne⟩ := Desk.optionally_handlerName hname
    obtain ⟨text?, htext, rfl, hsound⟩ := Desk.optionally_handlerSchema hschema
    obtain ⟨old, hold, rfl⟩ := Settings.update_eq_ok (mapError_eq_ok.1 hupdate)
    exact ⟨.updated hs hold hne htext hsound, rfl⟩

theorem makes_of_removeHandler {index : Nat} (h : d.removeHandler json index = .ok r) :
    (removeHandler index).Makes d r.change ∧ r.failure = none := by
  obtain ⟨s, hs, h⟩ := bind_eq_ok.1 h
  obtain ⟨⟨h', s'⟩, hremove, h⟩ := bind_eq_ok.1 h
  obtain rfl := Except.ok.inj h
  obtain ⟨hold, rfl⟩ := Settings.remove_eq_ok (mapError_eq_ok.1 hremove)
  exact ⟨.removed hs hold, rfl⟩

/-- **What a decision changes is what the command is for**, and a complaint after the printing comes with no
change. -/
theorem makes_of_decide {c : Command} (h : c.decide json d = .ok r) :
    c.Makes d r.change ∧ (r.failure.isSome → r.change = .nothing) := by
  have hsilent : c.Makes d r.change ∧ r.failure = none →
      c.Makes d r.change ∧ (r.failure.isSome → r.change = .nothing) := fun ⟨hmakes, hnone⟩ =>
    ⟨hmakes, fun hsome => by rw [hnone] at hsome; cases hsome⟩
  cases c with
  -- What reads a page, a schema or an address.
  | run path dump => exact hsilent (makes_of_run h)
  | check schema => exact hsilent (makes_of_check h)
  | fetch url => exact hsilent (makes_of_fetch h)
  -- What is about handlers.
  | listHandlers =>
    obtain ⟨s, -, h⟩ := bind_eq_ok.1 h
    obtain rfl := Except.ok.inj h
    exact ⟨.looked rfl, nofun⟩
  | addHandler name schema => exact hsilent (makes_of_addHandler h)
  | updateHandler index name? schema? => exact hsilent (makes_of_updateHandler h)
  | removeHandler index => exact hsilent (makes_of_removeHandler h)
  -- What is about settings: the check of them is the one command that complains after it has printed.
  | showSettings =>
    obtain ⟨s, -, h⟩ := bind_eq_ok.1 h
    obtain rfl := Except.ok.inj h
    exact ⟨.looked rfl, nofun⟩
  | validateSettings =>
    obtain ⟨s, -, h⟩ := bind_eq_ok.1 h
    obtain rfl := Except.ok.inj h
    exact ⟨.looked rfl, fun _ => rfl⟩
  | resetSettings =>
    obtain rfl := Except.ok.inj h
    exact ⟨.reset, nofun⟩
  | setDebug on =>
    obtain ⟨s, hs, h⟩ := bind_eq_ok.1 h
    obtain rfl := Except.ok.inj h
    exact ⟨.debugging hs, nofun⟩
  -- What is about the badge.
  | showCounter =>
    obtain ⟨b, -, h⟩ := bind_eq_ok.1 h
    obtain rfl := Except.ok.inj h
    exact ⟨.looked rfl, nofun⟩
  | resetCounter =>
    obtain ⟨b, hb, h⟩ := bind_eq_ok.1 h
    obtain rfl := Except.ok.inj h
    exact ⟨.zeroed hb, nofun⟩

/-- Whether a command is about handlers and settings. -/
def isAboutSettings : Command → Bool
  | listHandlers => true
  | addHandler _ _ => true
  | updateHandler _ _ _ => true
  | removeHandler _ => true
  | showSettings => true
  | validateSettings => true
  | resetSettings => true
  | setDebug _ => true
  | _ => false

theorem Makes.settings {c : Command} {s : Settings} (h : c.Makes d (.settings s)) :
    c.isAboutSettings = true := by
  cases h <;> rfl

theorem Makes.state {c : Command} {b : Badge} (h : c.Makes d (.state b)) :
    c.isAboutSettings = false := by
  cases h <;> rfl

end Command

end PageSweep
