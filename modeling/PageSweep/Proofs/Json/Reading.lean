import PageSweep.Json.Bounds
import PageSweep.Proofs.Number.Numeral

/-!
# Texts that are read, and texts that are not

What is read has one form: an object that is read has its fields in the order of their keys, each key once, so that
every one of them can be looked up. And the first character that is no blank already tells most other texts from JSON:
it begins no value, so nothing that stands behind it matters.

* `increasing_of_read`: the fields of an object that is read.
* `read_of_front`: a text that begins like no value.
-/

namespace PageSweep.Json

open Text

/-! ### Objects that are read -/

/-- **An object that is read has its fields in order**, and each key once. -/
theorem increasing_of_read {text : String} {fields : List (String × Json)} (h : read text = .ok (.obj fields)) :
    Entries.Increasing fields := by
  obtain ⟨r, hr, -⟩ := read_eq_value.1 h
  obtain ⟨t, s, -, -, heq⟩ | ⟨fields', heq, hincreasing⟩ | ⟨-, hkind⟩ := readValue_cases hr
  · cases heq
  · cases heq
    exact hincreasing
  · exact absurd rfl hkind

/-! ### Texts that begin like no value -/

/-- Whether a value can begin with a character. -/
def beginsValue (c : Char) : Bool := "ntf-\"[\x7b".toList.contains c || c.isDigit

/-- No value begins with a blank. -/
theorem beginsValue_of_blank {c : Char} (h : isBlank c = true) : beginsValue c = false := by
  have hall : ("ntf-\"[\x7b".toList ++ "0123456789".toList).all (fun d => !isBlank d) = true := rfl
  refine Bool.eq_false_iff.2 fun hc => ?_
  rw [beginsValue, Bool.or_eq_true, List.contains_iff_mem] at hc
  have hmem := List.mem_append.2 (hc.imp id Number.isDigit_cases)
  have hsolid := List.all_eq_true.1 hall c hmem
  rw [h] at hsolid
  cases hsolid

theorem isBlank_of_isJsonSpace {c : Char} (h : isJsonSpace c = true) : isBlank c = true := by
  simp only [isJsonSpace, Bool.or_eq_true, beq_iff_eq] at h
  rcases h with ((rfl | rfl) | rfl) | rfl <;> rfl

/-- What stands behind the space that is skipped is a blank that does not count as space, or the first character that
is no blank. -/
theorem head_skipSpace (cs : List Char) :
    ∀ c ∈ (skipSpace cs).head?, isBlank c = true ∨ c ∈ (trimFront cs).head? := by
  induction cs with
  | nil => simp [skipSpace]
  | cons d cs ih =>
    intro c hc
    rw [skipSpace, List.dropWhile_cons] at hc
    rw [trimFront, List.dropWhile_cons]
    by_cases hspace : isJsonSpace d = true
    · rw [if_pos hspace] at hc
      rw [if_pos (isBlank_of_isJsonSpace hspace)]
      exact ih c hc
    · rw [if_neg hspace] at hc
      obtain rfl : d = c := Option.some.inj hc
      by_cases hblank : isBlank d = true
      · exact .inl hblank
      · rw [if_neg hblank]
        exact .inr rfl

theorem readValue_of_front {cs : List Char} (h : ∀ c ∈ (trimFront cs).head?, beginsValue c = false)
    (fuel room : Nat) : ∃ f, readValue (fuel + 1) room cs = .error f := by
  rw [readValue]
  cases hcs : skipSpace cs with
  | nil => exact ⟨_, rfl⟩
  | cons c r =>
    have hbegins : beginsValue c = false := by
      rcases head_skipSpace cs c (by rw [hcs]; rfl) with hblank | hc
      · exact beginsValue_of_blank hblank
      · exact h c hc
    have hne : ∀ d, beginsValue d = true → c ≠ d := by
      rintro d hd rfl
      exact Bool.false_ne_true (hbegins.symm.trans hd)
    have hdigit : c.isDigit = false := (Bool.or_eq_false_iff.1 hbegins).2
    simp [hne 'n' rfl, hne 't' rfl, hne 'f' rfl, hne '-' rfl, hne '"' rfl, hne '[' rfl, hne '\x7b' rfl, hdigit,
      faultNext]

/-- **A text that begins like no value** cannot be read, whatever follows. -/
theorem read_of_front {text : String} (h : ∀ c ∈ (trimFront text.toList).head?, beginsValue c = false) :
    ∃ e, read text = .error e := by
  obtain ⟨f, hf⟩ := readValue_of_front h (2 * text.toList.length + 1) depthLimit
  refine ⟨f.locate text.toList, ?_⟩
  simp only [read, readList, readAll, stepsFor, hf]

end PageSweep.Json
