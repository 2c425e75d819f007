import PageSweep.Proofs.CommandLine.Changes
import PageSweep.Proofs.Schema.Previews
import PageSweep.Proofs.Settings.Warnings

/-!
# Which schemas are remote

Whether a schema is an address is asked in five places: when a handler is run, when settings are validated, when a
schema is checked, when a handler is added, and when a schema is previewed. The first four ask it of the trimmed text
and are of one mind about every text. The preview asks it of the text as it stands, and takes an address with blanks in
front of it for something else.

* `Settings.passesOver_iff`, `Desk.reportsRemote_iff`, `Desk.takesUnread_iff`: one place each.
* `remote_references_agree`: all five.
-/

namespace PageSweep

open Text

/-! ### Validating -/

/-- Whether validating settings does not look at what stands in the schema of a handler: it cannot be read, and there is
no word of that. -/
def Settings.PassesOver (s : Settings) (index : Nat) (h : Handler) : Prop :=
  (∃ e, Json.read h.schema = .error e) ∧ ∀ e, .schemaUnreadable index h.name e ∉ s.warnings

theorem Settings.passesOver_iff {s : Settings} {index : Nat} {h : Handler} (hh : s.handlers[index]? = some h) :
    s.PassesOver index h ↔ h.isRemote = true := by
  constructor
  · rintro ⟨⟨e, he⟩, hsilent⟩
    by_contra hown
    exact hsilent e ((Settings.schemaUnreadable_iff hh).2 ⟨Bool.eq_false_iff.2 hown, he⟩)
  · intro hremote
    refine ⟨read_of_isAddress hremote, fun e he => ?_⟩
    cases hremote.symm.trans ((Settings.schemaUnreadable_iff hh).1 he).1

namespace Desk

variable {d : Desk} {argument : String}

theorem schemaText_of_head (h : argument.toList.head? ≠ some '@') : d.schemaText argument = .ok argument := by
  unfold schemaText
  split
  · rename_i r hr
    rw [hr] at h
    exact absurd rfl h
  · rfl

/-! ### Checking -/

/-- What is printed of a schema that is to be fetched. -/
def remoteReport (json : Bool) (argument : String) : String :=
  if json then
    sortedLines (.obj [("remote", .bool true), ("preview", .str (Schema.preview argument))])
  else linesOf [Schema.preview argument, "Remote schemas are resolved at run time; use `uncookie fetch` to inspect."]

/-- Whether checking a schema reports it as remote. -/
def ReportsRemote (d : Desk) (json : Bool) (argument : String) : Prop :=
  d.check json argument = .ok (.prints (remoteReport json argument))

theorem check_of_remote (hat : argument.toList.head? ≠ some '@') (hremote : isAddress (trim argument) = true)
    (json : Bool) : d.check json argument = .ok (.prints (remoteReport json argument)) := by
  rw [check, schemaText_of_head hat]
  simp only [bind, Except.bind, pure, Except.pure, hremote, if_true, remoteReport]

theorem check_of_unreadable {e : Json.Error} (hat : argument.toList.head? ≠ some '@')
    (hown : isAddress (trim argument) = false) (hread : Json.read argument = .error e) (json : Bool) :
    d.check json argument = .error (.schemaInvalid e) := by
  rw [check, schemaText_of_head hat]
  simp only [bind, Except.bind, hown, Bool.false_eq_true, if_false, hread]

theorem prefix_linesOf (l : String) (ls : List String) : l.toList <+: (linesOf (l :: ls)).toList := by
  rw [linesOf, join, String.toList_ofList, List.map_cons, List.map_cons, lineOf, String.toList_append]
  exact (List.prefix_append _ _).trans (prefix_joinList _ _ _)

/-- Whether an object comes to begin with a key when its fields are put in order. -/
def IsFirstKey (key : String) (v : Json) : Prop := ∃ w fields, v.sorted = .obj ((key, w) :: fields)

theorem isFirstKey_local (shape entries domains preview : Json) :
    IsFirstKey "domains" (.obj [("remote", .bool false), ("shape", shape), ("entries", entries), ("domains", domains),
      ("preview", preview)]) := by
  have hshape : ¬ "shape" < "remote" := by decide
  have hentries : "entries" < "remote" := by decide
  have hdomains : "domains" < "entries" := by decide
  have hpreview : ¬ "preview" < "domains" := by decide
  simp [IsFirstKey, Json.sorted, Json.sortedFields, Json.ofFields, Entries.ofList, Entries.insert, hshape, hentries,
    hdomains, hpreview]

theorem isFirstKey_remote (preview : Json) :
    IsFirstKey "preview" (.obj [("remote", .bool true), ("preview", preview)]) := by
  have hpreview : "preview" < "remote" := by decide
  simp [IsFirstKey, Json.sorted, Json.sortedFields, Json.ofFields, Entries.ofList, Entries.insert, hpreview]

/-- An object over several lines begins with its first key. -/
theorem prefix_sortedLines {v : Json} {key : String} (h : IsFirstKey key v) :
    '\x7b' :: Json.newline 1 ++ Json.quoted key <+: (sortedLines v).toList := by
  obtain ⟨w, fields, hsorted⟩ := h
  rw [sortedLines, jsonLines, lineOf, hsorted, String.toList_append, Json.indented,
    String.toList_ofList (l := Json.indentedChars _ _), Json.indentedChars, Json.indentedFields, Json.bracketed]
  simp only [List.isEmpty_cons, Bool.false_eq_true, if_false, List.cons_append, List.append_assoc, List.prefix_cons_inj,
    List.prefix_append_right_inj]
  exact ((List.prefix_append _ _).trans (prefix_joinList _ _ _)).trans (List.prefix_append _ _)

/-- **A schema that is read is not reported as remote**: the first key of the report is another one, and so is its
first line. -/
theorem check_of_read {v : Json} (hat : argument.toList.head? ≠ some '@') (hown : isAddress (trim argument) = false)
    (hread : Json.read argument = .ok v) (json : Bool) :
    ∃ text, d.check json argument = .ok (.prints text) ∧ text ≠ remoteReport json argument := by
  rw [check, schemaText_of_head hat]
  simp only [bind, Except.bind, pure, Except.pure, hown, Bool.false_eq_true, if_false, hread]
  refine ⟨_, rfl, fun htext => ?_⟩
  cases json with
  | true =>
    simp only [if_true, remoteReport] at htext
    have hlocal := prefix_sortedLines (isFirstKey_local (.str (ActionGroup.detectText argument).1.shapeName)
      (.ofNat (ActionGroup.detectText argument).1.size) (.arr ((ActionGroup.detectText argument).1.domains.map .str))
      (.str (Schema.preview argument)))
    have hremote := prefix_sortedLines (isFirstKey_remote (.str (Schema.preview argument)))
    rw [htext] at hlocal
    exact absurd (List.prefix_of_prefix_length_le hlocal hremote (by decide)) (by decide)
  | false =>
    simp only [Bool.false_eq_true, if_false, List.cons_append] at htext
    have hlocal : ("Shape:   " ++ (ActionGroup.detectText argument).1.shapeName).toList <+:
        (remoteReport false argument).toList := htext ▸ prefix_linesOf _ _
    have hshape : ['S'] <+: (remoteReport false argument).toList := by
      rw [String.toList_append] at hlocal
      exact (List.prefix_append ['S'] _).trans hlocal
    have hpreview : (Schema.preview argument).toList <+: (remoteReport false argument).toList := prefix_linesOf _ _
    rcases Schema.front_preview_of_read hread with hfront | hfront <;>
      exact absurd (List.prefix_of_prefix_length_le hshape (hfront.trans hpreview) (by decide)) (by decide)

theorem reportsRemote_iff (hat : argument.toList.head? ≠ some '@') (json : Bool) :
    d.ReportsRemote json argument ↔ isAddress (trim argument) = true := by
  refine ⟨fun hreport => ?_, fun hremote => check_of_remote hat hremote json⟩
  by_contra hown
  cases hread : Json.read argument with
  | error e => cases hreport.symm.trans (check_of_unreadable hat (Bool.eq_false_iff.2 hown) hread json)
  | ok v =>
    obtain ⟨text, hcheck, hne⟩ := check_of_read (d := d) hat (Bool.eq_false_iff.2 hown) hread json
    cases hreport.symm.trans hcheck
    exact hne rfl

/-! ### Adding -/

/-- Whether a handler is added with a schema that is not looked at: it is taken, and it cannot be read. -/
def TakesUnread (d : Desk) (argument : String) : Prop :=
  d.handlerSchema argument = .ok (trim argument) ∧ ∃ e, Json.read (trim argument) = .error e

theorem takesUnread_iff (hat : argument.toList.head? ≠ some '@') :
    d.TakesUnread argument ↔ isAddress (trim argument) = true := by
  constructor
  · rintro ⟨htaken, e, he⟩
    obtain ⟨-, -, -, haddress | ⟨v, hv⟩⟩ := handlerSchema_eq_ok htaken
    · exact haddress
    · cases he.symm.trans hv
  · intro haddress
    have hne : (trim argument).isEmpty = false := by
      refine Bool.eq_false_iff.2 fun hempty => ?_
      rw [String.isEmpty_iff.1 hempty] at haddress
      cases haddress
    refine ⟨?_, read_of_isAddress (by rw [trim_trim, haddress])⟩
    rw [handlerSchema, schemaText_of_head hat]
    simp [bind, Except.bind, pure, Except.pure, hne, haddress]

/-- A handler is added with a name and a schema, each of which is one, to settings that can be loaded. -/
theorem addHandler_eq_ok_iff {json : Bool} {name : String} : (∃ r, d.addHandler json name argument = .ok r) ↔
    (trim name).isEmpty = false ∧ (∃ text, d.handlerSchema argument = .ok text) ∧ ∃ s, d.loadSettings = .ok s := by
  constructor
  · rintro ⟨r, hr⟩
    obtain ⟨name', hname, hr⟩ := bind_eq_ok.1 hr
    obtain ⟨text, htext, hr⟩ := bind_eq_ok.1 hr
    obtain ⟨s, hs, -⟩ := bind_eq_ok.1 hr
    obtain ⟨rfl, hne⟩ := handlerName_eq_ok hname
    exact ⟨hne, ⟨text, htext⟩, s, hs⟩
  · rintro ⟨hne, ⟨text, htext⟩, s, hs⟩
    have hname : handlerName name = .ok (trim name) := by rw [handlerName, hne]; rfl
    exact ⟨_, bind_eq_ok.2 ⟨_, hname, bind_eq_ok.2 ⟨_, htext, bind_eq_ok.2 ⟨_, hs, rfl⟩⟩⟩⟩

end Desk

/-! ### All places -/

/-- **Four places agree on which schemas are remote, and the fifth one nearly does.** For a schema that is given as it
stands and not as a file, with whatever blanks around it: validating passes it over, checking reports it as remote, and
it is taken for a handler without being JSON, just if the handler is remote. Its preview has the label of an address
just if it is an address as it stands, or begins with the label itself. So but for such texts the preview is right
unless the schema is remote and has a blank in front. -/
theorem remote_references_agree (name : String) {argument : String} (hat : argument.toList.head? ≠ some '@') :
    let h : Handler := ⟨name, argument⟩
    let remote := h.isRemote = true
    let previewed := startsWith "Remote schema: " (Schema.preview argument) = true
    (∀ (s : Settings) index, s.handlers[index]? = some h → (s.PassesOver index h ↔ remote)) ∧
      (∀ (d : Desk) json, d.ReportsRemote json argument ↔ remote) ∧ (∀ d : Desk, d.TakesUnread argument ↔ remote) ∧
      (∀ (d : Desk) json s, d.loadSettings = .ok s → (trim name).isEmpty = false →
        ((∃ r, d.addHandler json name argument = .ok r) ∧ (∃ e, Json.read (trim argument) = .error e) ↔ remote)) ∧
      (previewed ↔ isAddress argument = true ∨ startsWith "Remote schema: " argument = true) ∧
      (startsWith "Remote schema: " argument = false →
        ((previewed ↔ remote) ↔ ¬ (remote ∧ ∃ c ∈ argument.toList.head?, isBlank c = true))) := by
  intro h remote previewed
  refine ⟨fun s index hh => Settings.passesOver_iff hh, fun d json => Desk.reportsRemote_iff hat json,
    fun d => Desk.takesUnread_iff hat, fun d json s hs hname => ?_, Schema.startsWith_preview_iff, fun hlabel => ?_⟩
  · rw [Desk.addHandler_eq_ok_iff, show remote ↔ d.TakesUnread argument from (Desk.takesUnread_iff hat).symm]
    constructor
    · rintro ⟨⟨-, ⟨text, htext⟩, -⟩, hunread⟩
      obtain ⟨given, hgiven, rfl, -⟩ := Desk.handlerSchema_eq_ok htext
      cases (Desk.schemaText_of_head hat).symm.trans hgiven
      exact ⟨htext, hunread⟩
    · rintro ⟨htaken, hunread⟩
      exact ⟨⟨hname, ⟨_, htaken⟩, s, hs⟩, hunread⟩
  · have hpreviewed : previewed ↔ remote ∧ ∀ c ∈ argument.toList.head?, isBlank c = false := by
      refine Schema.startsWith_preview_iff.trans ?_
      rw [hlabel, isAddress_iff]
      exact or_iff_left Bool.false_ne_true
    rw [hpreviewed, not_and, not_exists]
    constructor
    · rintro hagree hremote c ⟨hc, hblank⟩
      rw [(hagree.2 hremote).2 c hc] at hblank
      cases hblank
    · intro hfront
      exact ⟨And.left, fun hremote => ⟨hremote, fun c hc => Bool.eq_false_iff.2 fun hblank =>
        hfront hremote c ⟨hc, hblank⟩⟩⟩

/-- An address with a blank behind it. -/
theorem remote_references_agree_blankBehind :
    let argument := "https://rules.example/shop.json "
    argument.toList.head? ≠ some '@' ∧ startsWith "Remote schema: " (Schema.preview argument) = true ∧
      (∀ (d : Desk) json, d.ReportsRemote json argument) ∧ ∀ d : Desk, d.TakesUnread argument := by
  intro argument
  have hat : argument.toList.head? ≠ some '@' := by decide
  have hremote : (⟨"shop.example", argument⟩ : Handler).isRemote = true := by decide
  obtain ⟨-, hcheck, htaken, -, hpreview, -⟩ := remote_references_agree "shop.example" hat
  exact ⟨hat, hpreview.2 (.inl (by decide)), fun d json => (hcheck d json).2 hremote, fun d => (htaken d).2 hremote⟩

/-- **An address with a blank in front** is reported as remote, and previewed as it stands. -/
theorem blank_in_front_previewed :
    let argument := " https://rules.example/shop.json"
    argument.toList.head? ≠ some '@' ∧ (⟨"shop.example", argument⟩ : Handler).isRemote = true ∧
      (∀ (d : Desk) json, d.ReportsRemote json argument) ∧ (∀ d : Desk, d.TakesUnread argument) ∧
      Schema.preview argument = argument ∧ startsWith "Remote schema: " (Schema.preview argument) = false := by
  intro argument
  have hat : argument.toList.head? ≠ some '@' := by decide
  have hremote : isAddress (trim argument) = true := by decide
  have hpreview : Schema.preview argument = argument := by
    obtain ⟨e, he⟩ := read_of_isAddress hremote
    rw [Schema.preview_of_unreadable (by decide) he]
    decide
  refine ⟨hat, hremote, fun d json => (Desk.reportsRemote_iff hat json).2 hremote,
    fun d => (Desk.takesUnread_iff hat).2 hremote, hpreview, ?_⟩
  rw [hpreview]
  decide

end PageSweep
