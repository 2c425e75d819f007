import PageSweep.Settings.Warning

/-!
# Which warnings there are

A warning belongs to the handler at its place, or to the settings as a whole. What is wrong with a schema is said only
of a handler that has one of its own, and either that it cannot be read or that there is nothing in it.

* `Settings.mem_warnings_iff`, `Settings.mem_warnings_iff_at`: where warnings come from.
* `Settings.schemaEmpty_iff`, `Settings.schemaUnreadable_iff`: the warnings of a schema.
-/

namespace PageSweep

open Json

namespace Warning

theorem mem_ofHandlers_iff {w : Warning} {first : Nat} {hs : List Handler} :
    w ∈ ofHandlers first hs ↔ ∃ i h, hs[i]? = some h ∧ w ∈ ofHandler (first + i) h := by
  induction hs generalizing first with
  | nil => simp [ofHandlers]
  | cons h hs ih =>
    rw [ofHandlers, List.mem_append, ih]
    constructor
    · rintro (hw | ⟨i, h', hi, hw⟩)
      · exact ⟨0, h, rfl, hw⟩
      · exact ⟨i + 1, h', hi, by rwa [show first + (i + 1) = first + 1 + i from by omega]⟩
    · rintro ⟨i, h', hi, hw⟩
      cases i with
      | zero =>
        cases hi
        exact .inl hw
      | succ i => exact .inr ⟨i, h', hi, by rwa [show first + 1 + i = first + (i + 1) from by omega]⟩

/-- The place of the handler that a warning is about. -/
def place? : Warning → Option Nat
  | unnamed i => some i
  | schemaUnreadable i _ _ => some i
  | schemaEmpty i _ => some i
  | _ => none

variable {i : Nat} {h : Handler}

theorem mem_ofHandler_iff {w : Warning} :
    w ∈ ofHandler i h ↔ (w = unnamed i ∧ (Text.trimList h.name.toList).isEmpty = true) ∨ w ∈ ofSchema i h := by
  rw [ofHandler, List.mem_append]
  split <;> simp [*]

theorem ofSchema_of_remote (hremote : h.isRemote = true) : ofSchema i h = [] := by
  rw [ofSchema, if_pos hremote]

theorem ofSchema_of_unreadable {e : Json.Error} (hown : h.isRemote = false) (hread : read h.schema = .error e) :
    ofSchema i h = [schemaUnreadable i h.name e] := by
  rw [ofSchema, hown, hread]
  rfl

theorem ofSchema_of_read {v : Json} (hown : h.isRemote = false) (hread : read h.schema = .ok v) :
    ofSchema i h = if (ActionGroup.detectText h.schema).1.isEmpty then [schemaEmpty i h.name] else [] := by
  rw [ofSchema, hown, hread]
  rfl

/-- What is said of a schema: nothing of a remote one, and otherwise one thing at most. -/
theorem mem_ofSchema_iff {w : Warning} : w ∈ ofSchema i h ↔ h.isRemote = false ∧
    ((∃ e, read h.schema = .error e ∧ w = schemaUnreadable i h.name e) ∨
      ((∃ v, read h.schema = .ok v) ∧ (ActionGroup.detectText h.schema).1.isEmpty = true ∧
        w = schemaEmpty i h.name)) := by
  cases hremote : h.isRemote with
  | true => simp [ofSchema_of_remote hremote]
  | false =>
    cases hread : read h.schema with
    | error e => simp [ofSchema_of_unreadable hremote hread]
    | ok v =>
      rw [ofSchema_of_read hremote hread]
      split <;> simp [*]

theorem place?_of_mem {w : Warning} (hw : w ∈ ofHandler i h) : w.place? = some i := by
  obtain ⟨rfl, -⟩ | hw := mem_ofHandler_iff.1 hw
  · rfl
  · obtain ⟨-, ⟨e, -, rfl⟩ | ⟨-, -, rfl⟩⟩ := mem_ofSchema_iff.1 hw
    · rfl
    · rfl

end Warning

namespace Settings

variable {s : Settings} {index : Nat} {h : Handler}

/-- **Where warnings come from**: the whole of the settings, or the handler at a place. -/
theorem mem_warnings_iff {w : Warning} : w ∈ s.warnings ↔ (w = .noHandlers ∧ s.handlers = []) ∨
    (∃ i h, s.handlers[i]? = some h ∧ w ∈ Warning.ofHandler i h) ∨ (w = .noChains ∧ s.maxChainDepth = 0) := by
  simp [warnings, Warning.mem_ofHandlers_iff, and_comm]

/-- The warnings about a place are those of the handler there. -/
theorem mem_warnings_iff_at {w : Warning} (hw : w.place? = some index) (hh : s.handlers[index]? = some h) :
    w ∈ s.warnings ↔ w ∈ Warning.ofHandler index h := by
  rw [mem_warnings_iff]
  constructor
  · rintro (⟨rfl, -⟩ | ⟨i, h', hi, hmem⟩ | ⟨rfl, -⟩)
    · cases hw
    · cases (Warning.place?_of_mem hmem).symm.trans hw
      cases hh.symm.trans hi
      exact hmem
    · cases hw
  · exact fun hmem => .inr (.inl ⟨index, h, hh, hmem⟩)

/-- **The warning of an empty schema** is for one that can be read and has no entries. -/
theorem schemaEmpty_iff (hh : s.handlers[index]? = some h) : .schemaEmpty index h.name ∈ s.warnings ↔
    h.isRemote = false ∧ (∃ v, read h.schema = .ok v) ∧ (ActionGroup.detectText h.schema).1.isEmpty = true := by
  rw [mem_warnings_iff_at rfl hh]
  simp [Warning.mem_ofHandler_iff, Warning.mem_ofSchema_iff]

/-- **The warning of an unreadable schema** is for one that is not remote. -/
theorem schemaUnreadable_iff {e : Json.Error} (hh : s.handlers[index]? = some h) :
    .schemaUnreadable index h.name e ∈ s.warnings ↔ h.isRemote = false ∧ read h.schema = .error e := by
  rw [mem_warnings_iff_at rfl hh]
  simp [Warning.mem_ofHandler_iff, Warning.mem_ofSchema_iff]

end Settings

end PageSweep
